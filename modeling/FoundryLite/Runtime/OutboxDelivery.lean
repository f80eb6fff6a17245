import FoundryLite.Runtime.Outbox

/-!
# No outbox event is lost

What a step does to the tables is one of five things (`TablesStep`): it adds an event, moves one
between the statuses other than `failed`, fails one and inserts its dead letter, or retries a failed
one and deletes its dead letter; or it changes nothing. From this the tables satisfy at any time that
the failed events and the dead letters are in bijection (`TablesInvariant`): the dead letter of an
event has an id of its own, so a second failure finds it free after the retry deleted it.

A publisher whose claim was reclaimed is fenced off for good because no two claims of an event were
made at the same time, which is what `DistinctClaims` says of a history.

## Main result

* `Outbox.guarantees_of_run`: what holds of the outbox at any time.
-/

namespace FoundryLite.Runtime

open Runs

/-! ### What a step does to the tables -/

/-- The event is as it was inserted, in whatever status. -/
structure SameEvent (row row' : OutboxEvent) : Prop where
  eventType : row'.eventType = row.eventType
  payload : row'.payload = row.payload
  idempotencyKey : row'.idempotencyKey = row.idempotencyKey

theorem SameEvent.refl (row : OutboxEvent) : SameEvent row row := ⟨rfl, rfl, rfl⟩

theorem SameEvent.trans {row row' row'' : OutboxEvent} (h : SameEvent row row')
    (h' : SameEvent row' row'') : SameEvent row row'' :=
  ⟨h'.eventType.trans h.eventType, h'.payload.trans h.payload,
    h'.idempotencyKey.trans h.idempotencyKey⟩

/-- What a step may do to the tables. -/
inductive TablesStep (s : Outbox.State) : Outbox.Event → OutboxTables → Prop
  | refl {e : Outbox.Event} : TablesStep s e s.tables
  | insert {hex eventType : String} {payload : Dict String Json} {key : Option String}
      {row : OutboxEvent} :
      s.tables.events.get? (newIdOf "outbox" hex) = none → row.status = .pending →
      row.claimedAt = none →
      TablesStep s (.insert hex eventType payload key)
        (s.tables.setEvent (newIdOf "outbox" hex) row)
  | claim {call : ℕ} {eventId claimedAt : String} {row row' : OutboxEvent} :
      s.tables.events.get? eventId = some row → row.status = .pending →
      row'.status = .publishing → row'.claimedAt = some claimedAt → SameEvent row row' →
      TablesStep s (.claim call eventId claimedAt) (s.tables.setEvent eventId row')
  | reclaim {eventId claimedBefore : String} {row row' : OutboxEvent} :
      s.tables.events.get? eventId = some row → row.status = .publishing →
      row'.status = .pending → row'.claimedAt = none → SameEvent row row' →
      TablesStep s (.reclaim eventId claimedBefore) (s.tables.setEvent eventId row')
  | endClaim {call : ℕ} {now hex : String} {p : Outbox.Publisher} {row row' : OutboxEvent} :
      s.publishers call = some p → s.tables.events.get? p.eventId = some row →
      row.status = .publishing → row.claimedAt = some p.fence → row'.claimedAt = none →
      row'.status = .pending ∨ p.phase = .returned ∧ row'.status = .published → SameEvent row row' →
      TablesStep s (.record call now hex) (s.tables.setEvent p.eventId row')
  | fail {call : ℕ} {now hex : String} {p : Outbox.Publisher} {row row' : OutboxEvent}
      {letter : DeadLetterEvent} :
      s.publishers call = some p → s.tables.events.get? p.eventId = some row →
      row.status = .publishing → row.claimedAt = some p.fence → row'.claimedAt = none →
      row'.status = .failed → SameEvent row row' → letter.sourceEventId = some p.eventId →
      TablesStep s (.record call now hex) ⟨s.tables.events.insert p.eventId row',
        s.tables.deadLetters.insert ("dlq_" ++ p.eventId) letter⟩
  | retry {call : ℕ} {eventId : String} {row row' : OutboxEvent} :
      s.tables.events.get? eventId = some row → row.status = .failed → row'.status = .pending →
      row'.claimedAt = none → SameEvent row row' →
      TablesStep s (.retry call) ⟨s.tables.events.insert eventId row',
        s.tables.deadLetters.erase ("dlq_" ++ eventId)⟩

/-- The failed events and the dead letters belong to each other one by one. -/
structure TablesInvariant (tables : OutboxTables) : Prop where
  nonempty : ∀ eventId row, tables.events.get? eventId = some row → eventId ≠ ""
  failed : ∀ eventId row, tables.events.get? eventId = some row → row.status = .failed →
    ∃ letter, tables.deadLetters.get? ("dlq_" ++ eventId) = some letter
  letter : ∀ letterId letter, tables.deadLetters.get? letterId = some letter →
    ∃ eventId row, letterId = "dlq_" ++ eventId ∧ letter.sourceEventId = some eventId ∧
      tables.events.get? eventId = some row ∧ row.status = .failed

theorem newIdOf_ne_empty (kind hex : String) : newIdOf kind hex ≠ "" := by
  intro h
  have hlength := congrArg String.length h
  simp [newIdOf, String.length_append] at hlength

theorem dlq_append_inj {a b : String} (h : "dlq_" ++ a = "dlq_" ++ b) : a = b :=
  (String.append_right_inj "dlq_").mp h

@[simp]
theorem events_setEvent (tables : OutboxTables) (eventId : String) (row : OutboxEvent) :
    (tables.setEvent eventId row).events = tables.events.insert eventId row := rfl

@[simp]
theorem deadLetters_setEvent (tables : OutboxTables) (eventId : String) (row : OutboxEvent) :
    (tables.setEvent eventId row).deadLetters = tables.deadLetters := rfl

namespace TablesInvariant

variable {tables tables' : OutboxTables}

theorem empty : TablesInvariant ⟨∅, ∅⟩ where
  nonempty eventId row h := by simp at h
  failed eventId row h := by simp at h
  letter letterId letter h := by simp at h

/-- An event is written together with its dead letter. -/
theorem write {eventId : String} {row' : OutboxEvent} {deadLetters : Dict String DeadLetterEvent}
    (h : TablesInvariant tables) (letter? : Option DeadLetterEvent) (hid : eventId ≠ "")
    (hletters : ∀ letterId, deadLetters.get? letterId =
      if letterId = "dlq_" ++ eventId then letter? else tables.deadLetters.get? letterId)
    (hfailed : row'.status = .failed ↔ letter?.isSome)
    (hsource : ∀ letter ∈ letter?, letter.sourceEventId = some eventId) :
    TablesInvariant ⟨tables.events.insert eventId row', deadLetters⟩ where
  nonempty id r hr := by
    simp only [Dict.get?_insert] at hr
    split_ifs at hr with heq
    · exact heq ▸ hid
    · exact h.nonempty id r hr
  failed id r hr hstatus := by
    simp only [Dict.get?_insert, hletters] at hr ⊢
    split_ifs at hr with heq
    · obtain rfl := Option.some.inj hr
      rw [heq, if_pos rfl]
      exact Option.isSome_iff_exists.mp (hfailed.mp hstatus)
    · obtain ⟨l, hl⟩ := h.failed id r hr hstatus
      exact ⟨l, by rw [if_neg fun hid => heq (dlq_append_inj hid), hl]⟩
  letter letterId l hl := by
    simp only [Dict.get?_insert]
    rw [hletters] at hl
    split_ifs at hl with heq
    · exact ⟨eventId, row', heq, hsource l hl, if_pos rfl, hfailed.mpr (hl ▸ rfl)⟩
    · obtain ⟨id, r, rfl, hsource', hr, hstatus⟩ := h.letter letterId l hl
      have hne : id ≠ eventId := fun hid => heq (by rw [hid])
      exact ⟨id, r, rfl, hsource', by rw [if_neg hne, hr], hstatus⟩

/-- The dead letter of an event that has not failed is free. -/
theorem deadLetters_get?_eq_none {eventId : String} (h : TablesInvariant tables)
    (hbefore : ∀ row, tables.events.get? eventId = some row → row.status ≠ .failed) :
    tables.deadLetters.get? ("dlq_" ++ eventId) = none := by
  by_contra hsome
  obtain ⟨letter, hletter⟩ := Option.ne_none_iff_exists'.mp hsome
  obtain ⟨id, row, hid, -, hrow, hfailed⟩ := h.letter _ letter hletter
  obtain rfl := dlq_append_inj hid
  exact hbefore row hrow hfailed

/-- An event that did not fail and does not now. -/
theorem setEvent {eventId : String} {row' : OutboxEvent} (h : TablesInvariant tables)
    (hid : eventId ≠ "")
    (hbefore : ∀ row, tables.events.get? eventId = some row → row.status ≠ .failed)
    (hafter : row'.status ≠ .failed) : TablesInvariant (tables.setEvent eventId row') := by
  refine h.write none hid (fun letterId => ?_) (by simp [hafter]) (by simp)
  split_ifs with heq
  · rw [heq, h.deadLetters_get?_eq_none hbefore]
  · rfl

theorem fail {eventId : String} {row row' : OutboxEvent} {letter : DeadLetterEvent}
    (h : TablesInvariant tables) (hrow : tables.events.get? eventId = some row)
    (hafter : row'.status = .failed) (hletter : letter.sourceEventId = some eventId) :
    TablesInvariant ⟨tables.events.insert eventId row',
      tables.deadLetters.insert ("dlq_" ++ eventId) letter⟩ :=
  h.write letter (h.nonempty _ _ hrow) (fun _ => Dict.get?_insert ..) (by simp [hafter])
    (by simpa using hletter)

theorem retry {eventId : String} {row row' : OutboxEvent} (h : TablesInvariant tables)
    (hrow : tables.events.get? eventId = some row) (hafter : row'.status ≠ .failed) :
    TablesInvariant ⟨tables.events.insert eventId row',
      tables.deadLetters.erase ("dlq_" ++ eventId)⟩ :=
  h.write none (h.nonempty _ _ hrow) (fun _ => Dict.get?_erase ..) (by simp [hafter]) (by simp)

theorem moved {eventId : String} {row row' : OutboxEvent} (h : TablesInvariant tables)
    (hrow : tables.events.get? eventId = some row) (hbefore : row.status ≠ .failed)
    (hafter : row'.status ≠ .failed) : TablesInvariant (tables.setEvent eventId row') := by
  refine h.setEvent (h.nonempty _ _ hrow) (fun r hr => ?_) hafter
  obtain rfl := Option.some.inj (hrow.symm.trans hr)
  exact hbefore

theorem step {s : Outbox.State} {e : Outbox.Event} (h : TablesInvariant s.tables)
    (hstep : TablesStep s e tables') : TablesInvariant tables' := by
  cases hstep with
  | refl => exact h
  | insert hnone hstatus _ =>
    refine h.setEvent (newIdOf_ne_empty _ _) (fun row hrow => ?_) (by simp [hstatus])
    rw [hnone] at hrow
    exact absurd hrow (by simp)
  | claim hrow hbefore hafter _ _ => exact h.moved hrow (by simp [hbefore]) (by simp [hafter])
  | reclaim hrow hbefore hafter _ _ => exact h.moved hrow (by simp [hbefore]) (by simp [hafter])
  | endClaim _ hrow hbefore _ _ hafter _ =>
    refine h.moved hrow (by simp [hbefore]) ?_
    rcases hafter with hafter | ⟨-, hafter⟩ <;> simp [hafter]
  | fail _ hrow _ _ _ hafter _ hletter => exact h.fail hrow hafter hletter
  | retry hrow _ hafter _ _ => exact h.retry hrow (by simp [hafter])

end TablesInvariant

theorem get?_insert_kept {events : Dict String OutboxEvent} {id eventId : String}
    {r r' row : OutboxEvent} (hr : events.get? id = some r) (hsame : SameEvent r r')
    (hrow : events.get? eventId = some row) :
    ∃ row', (events.insert id r').get? eventId = some row' ∧ SameEvent row row' := by
  rw [Dict.get?_insert]
  split_ifs with heq
  · subst heq
    obtain rfl := Option.some.inj (hrow.symm.trans hr)
    exact ⟨r', rfl, hsame⟩
  · exact ⟨row, hrow, .refl row⟩

namespace TablesStep

variable {s : Outbox.State} {e : Outbox.Event} {tables' : OutboxTables}

/-- An event that is there stays there, as it was inserted. -/
theorem kept (h : TablesStep s e tables') {eventId : String} {row : OutboxEvent}
    (hrow : s.tables.events.get? eventId = some row) :
    ∃ row', tables'.events.get? eventId = some row' ∧ SameEvent row row' := by
  cases h with
  | refl => exact ⟨row, hrow, .refl row⟩
  | insert hnone _ _ =>
    refine ⟨row, ?_, .refl row⟩
    rw [events_setEvent, Dict.get?_insert, if_neg, hrow]
    rintro rfl
    rw [hnone] at hrow
    exact absurd hrow (by simp)
  | claim hr _ _ _ hsame => exact get?_insert_kept hr hsame hrow
  | reclaim hr _ _ _ hsame => exact get?_insert_kept hr hsame hrow
  | endClaim _ hr _ _ _ _ hsame => exact get?_insert_kept hr hsame hrow
  | fail _ hr _ _ _ _ hsame _ => exact get?_insert_kept hr hsame hrow
  | retry hr _ _ _ hsame => exact get?_insert_kept hr hsame hrow

/-- Only a publisher whose call returned makes an event published. -/
theorem published (h : TablesStep s e tables') {eventId : String} {row' : OutboxEvent}
    (hrow' : tables'.events.get? eventId = some row') (hstatus : row'.status = .published) :
    s.tables.events.get? eventId = some row' ∨
      ∃ call p, s.publishers call = some p ∧ p.eventId = eventId ∧ p.phase = .returned := by
  -- the event that the step writes, when it does not make it published
  have hother : ∀ {id : String} {r : OutboxEvent}, r.status ≠ .published →
      (s.tables.events.insert id r).get? eventId = some row' →
      s.tables.events.get? eventId = some row' := by
    intro id r hr hget
    rcases Dict.insert_eq_some hget with ⟨-, rfl⟩ | ⟨-, hget⟩
    · exact absurd hstatus hr
    · exact hget
  cases h with
  | refl => exact .inl hrow'
  | insert _ hpending _ => exact .inl (hother (by simp [hpending]) hrow')
  | claim _ _ hafter _ _ => exact .inl (hother (by simp [hafter]) hrow')
  | reclaim _ _ hafter _ _ => exact .inl (hother (by simp [hafter]) hrow')
  | @endClaim call _ _ p _ _ hp _ _ _ _ hafter _ =>
    rcases hafter with hafter | ⟨hreturned, -⟩
    · exact .inl (hother (by simp [hafter]) hrow')
    · rw [events_setEvent, Dict.get?_insert] at hrow'
      split_ifs at hrow' with heq
      · exact .inr ⟨call, p, hp, heq.symm, hreturned⟩
      · exact .inl hrow'
  | fail _ _ _ _ _ hafter _ _ => exact .inl (hother (by simp [hafter]) hrow')
  | retry _ _ hafter _ _ => exact .inl (hother (by simp [hafter]) hrow')

/-- Only a claim writes a claim time. -/
theorem claimedAt (h : TablesStep s e tables') {eventId fence : String} {row' : OutboxEvent}
    (hrow' : tables'.events.get? eventId = some row') (hclaimed : row'.claimedAt = some fence) :
    s.tables.events.get? eventId = some row' ∨ ∃ call, e = .claim call eventId fence := by
  have hother : ∀ {id : String} {r : OutboxEvent}, r.claimedAt = none →
      (s.tables.events.insert id r).get? eventId = some row' →
      s.tables.events.get? eventId = some row' := by
    intro id r hr hget
    rcases Dict.insert_eq_some hget with ⟨-, rfl⟩ | ⟨-, hget⟩
    · rw [hclaimed] at hr
      exact absurd hr (by simp)
    · exact hget
  cases h with
  | refl => exact .inl hrow'
  | insert _ _ hnone => exact .inl (hother hnone hrow')
  | @claim call id claimedAt _ r' _ _ _ hr' _ =>
    rcases Dict.insert_eq_some hrow' with ⟨heq, rfl⟩ | ⟨-, hrow'⟩
    · obtain rfl := Option.some.inj (hclaimed.symm.trans hr')
      exact .inr ⟨call, by rw [heq]⟩
    · exact .inl hrow'
  | reclaim _ _ _ hnone _ => exact .inl (hother hnone hrow')
  | endClaim _ _ _ _ hnone _ _ => exact .inl (hother hnone hrow')
  | fail _ _ _ _ hnone _ _ _ => exact .inl (hother hnone hrow')
  | retry _ _ _ hnone _ => exact .inl (hother hnone hrow')

/-- What a publisher records, it records for an event whose claim it holds. -/
theorem fence (h : TablesStep s e tables') {call : ℕ} {now hex : String}
    (he : e = .record call now hex) (hchanged : tables' ≠ s.tables) :
    ∃ p row, s.publishers call = some p ∧ s.tables.events.get? p.eventId = some row ∧
      row.claimedAt = some p.fence := by
  cases h with
  | refl => exact absurd rfl hchanged
  | @endClaim _ _ _ p row _ hp hrow _ hclaimed _ _ _ =>
    obtain ⟨rfl, -, -⟩ := Outbox.Event.record.inj he
    exact ⟨p, row, hp, hrow, hclaimed⟩
  | @fail _ _ _ p row _ _ hp hrow _ hclaimed _ _ _ _ =>
    obtain ⟨rfl, -, -⟩ := Outbox.Event.record.inj he
    exact ⟨p, row, hp, hrow, hclaimed⟩
  | insert _ _ _ => exact absurd he (by simp)
  | claim _ _ _ _ _ => exact absurd he (by simp)
  | reclaim _ _ _ _ _ => exact absurd he (by simp)
  | retry _ _ _ _ _ => exact absurd he (by simp)

end TablesStep

/-! ### What the statements do -/

section Statements

variable {tables tables' : OutboxTables} {eventId fence : String} {row row' : OutboxEvent}

theorem updateEvent_eq_some_iff {update : OutboxEvent → Option OutboxEvent} :
    tables.updateEvent eventId update = some (row', tables') ↔
      ∃ row, tables.events.get? eventId = some row ∧ update row = some row' ∧
        tables' = tables.setEvent eventId row' := by
  simp only [OutboxTables.updateEvent, Option.bind_eq_bind, Option.bind_eq_some_iff,
    Option.pure_def, Option.some.injEq, Prod.mk.injEq]
  constructor
  · rintro ⟨row, hrow, updated, hupdate, rfl, rfl⟩
    exact ⟨row, hrow, hupdate, rfl⟩
  · rintro ⟨row, hrow, hupdate, rfl⟩
    exact ⟨row, hrow, row', hupdate, rfl, rfl⟩

theorem endOutboxClaim_eq_some {transition : StatusTransition OutboxStatus}
    {publishedAt : Option String} (hfrom : transition.fromStatuses = [.publishing])
    (h : endOutboxClaim transition fence publishedAt row = some row') :
    row.status = .publishing ∧ row.claimedAt = some fence ∧ row'.claimedAt = none ∧
      row'.status = transition.toStatus ∧ SameEvent row row' := by
  obtain ⟨hstatus, hclaimed, rfl⟩ := casStatusUpdate_eq_some_iff.mp h
  rw [hfrom, List.mem_singleton] at hstatus
  exact ⟨hstatus, of_decide_eq_true hclaimed, rfl, rfl, ⟨rfl, rfl, rfl⟩⟩

/-- The end of a claim goes through for whoever holds the claim. -/
theorem exists_endOutboxClaim {transition : StatusTransition OutboxStatus}
    {publishedAt : Option String} (hfrom : transition.fromStatuses = [.publishing])
    (hstatus : row.status = .publishing) (hclaimed : row.claimedAt = some fence) :
    ∃ row', endOutboxClaim transition fence publishedAt row = some row' :=
  ⟨_, casStatusUpdate_eq_some_iff.mpr ⟨by simp [hfrom, hstatus], by simp [hclaimed], rfl⟩⟩

/-- The dead letter of a failing event is inserted. -/
theorem insertDeadLetter_eq_ok (h : TablesInvariant tables)
    (hrow : tables.events.get? eventId = some row) (hstatus : row.status ≠ .failed)
    (now hex : String) (error : Dict String Json) (failed : OutboxEvent) :
    insertDeadLetter (tables.setEvent eventId failed) eventId now hex error failed =
      .ok ("dlq_" ++ eventId, ⟨tables.events.insert eventId failed,
        tables.deadLetters.insert ("dlq_" ++ eventId)
          ⟨some eventId, failed.eventType, failed.payload, error, now, none⟩⟩) := by
  have hid : deadLetterId eventId hex = "dlq_" ++ eventId := if_neg (h.nonempty _ _ hrow)
  have hfree := h.deadLetters_get?_eq_none fun r hr => Option.some.inj (hrow.symm.trans hr) ▸ hstatus
  simp [insertDeadLetter, hid, OutboxTables.insertDeadLetterEvent, hfree]

end Statements

namespace Outbox

/-! ### What a step does -/

/-- Beside the tables: a publisher's row was claimed, its call raised nothing, and a retry deletes
the dead letter of its event. -/
structure Invariant (s : State) : Prop where
  tables : TablesInvariant s.tables
  attempts : ∀ call p, s.publishers call = some p → 1 ≤ p.row.attempts
  done : ∀ call p e, s.publishers call = some p → p.phase ≠ .done (.error e)
  retries : ∀ call plan, s.retries call = some plan →
    plan.deadLetterEventId = "dlq_" ++ plan.outboxEventId

/-- A transaction of a publisher ends with a result, and nothing is raised. -/
def RecordsStep (s : State) (call : ℕ) (now hex : String)
    (result : Checked (PublishOutcome × OutboxTables)) : Prop :=
  ∃ outcome tables, result = .ok (outcome, tables) ∧ TablesStep s (.record call now hex) tables

variable {s t : State} {call : ℕ} {p : Publisher} {now hex : String}

theorem recordsStep_markPublished (hp : s.publishers call = some p) (hphase : p.phase = .returned) :
    RecordsStep s call now hex (.ok (markPublished s.tables p.eventId p.fence now)) := by
  cases hupdate : s.tables.updateEvent p.eventId (markOutboxEventPublished now p.fence) with
  | none =>
    simp only [markPublished, hupdate]
    exact ⟨_, _, rfl, .refl⟩
  | some updated =>
    obtain ⟨row', tables⟩ := updated
    simp only [markPublished, hupdate]
    obtain ⟨row, hrow, hend, rfl⟩ := updateEvent_eq_some_iff.mp hupdate
    obtain ⟨hstatus, hclaimed, hnone, hafter, hsame⟩ := endOutboxClaim_eq_some rfl hend
    exact ⟨_, _, rfl, .endClaim hp hrow hstatus hclaimed hnone (.inr ⟨hphase, hafter⟩) hsame⟩

theorem recordsStep_markRetryPending (hp : s.publishers call = some p) :
    RecordsStep s call now hex (.ok (markRetryPending s.tables p.eventId p.fence)) := by
  cases hupdate : s.tables.updateEvent p.eventId (markOutboxEventRetryPending p.fence) with
  | none =>
    simp only [markRetryPending, hupdate]
    exact ⟨_, _, rfl, .refl⟩
  | some updated =>
    obtain ⟨row', tables⟩ := updated
    simp only [markRetryPending, hupdate]
    obtain ⟨row, hrow, hend, rfl⟩ := updateEvent_eq_some_iff.mp hupdate
    obtain ⟨hstatus, hclaimed, hnone, hafter, hsame⟩ := endOutboxClaim_eq_some rfl hend
    exact ⟨_, _, rfl, .endClaim hp hrow hstatus hclaimed hnone (.inl hafter) hsame⟩

theorem recordsStep_markFailed (h : TablesInvariant s.tables) (hp : s.publishers call = some p)
    (error : Dict String Json) :
    RecordsStep s call now hex (markFailed s.tables p.eventId p.fence now hex error) := by
  cases hupdate : s.tables.updateEvent p.eventId (markOutboxEventFailed p.fence) with
  | none =>
    simp only [markFailed, hupdate]
    exact ⟨_, _, rfl, .refl⟩
  | some updated =>
    obtain ⟨failed, tables⟩ := updated
    simp only [markFailed, hupdate]
    obtain ⟨row, hrow, hend, rfl⟩ := updateEvent_eq_some_iff.mp hupdate
    obtain ⟨hstatus, hclaimed, hnone, hafter, hsame⟩ := endOutboxClaim_eq_some rfl hend
    rw [insertDeadLetter_eq_ok h hrow (by simp [hstatus]) now hex error failed]
    exact ⟨_, _, rfl, .fail hp hrow hstatus hclaimed hnone hafter hsame rfl⟩

theorem recordsStep_recordFailure (h : Invariant s) (hp : s.publishers call = some p)
    (error : Dict String Json) :
    RecordsStep s call now hex (recordFailure s.tables p.eventId p.fence now hex error p.row) := by
  have hattempts : rowAttempts p.row = .ok p.row.attempts :=
    if_neg (not_lt.mpr (h.attempts call p hp))
  rw [recordFailure, hattempts]
  by_cases hretry : p.row.attempts < maxOutboxPublishAttempts
  · simp only [hretry, ↓reduceIte, bind, Except.bind]
    exact recordsStep_markRetryPending hp
  · simp only [hretry, ↓reduceIte, bind, Except.bind]
    exact recordsStep_markFailed h.tables hp error

/-- A publisher records the outcome of its call without raising. -/
theorem record_cases (h : Invariant s) (hnext : s.record call now hex = some t) :
    ∃ p outcome tables, s.publishers call = some p ∧
      TablesStep s (.record call now hex) tables ∧
      t = { s.setPhase call p (.done (.ok outcome)) with tables } := by
  obtain ⟨p, hp, hrecord⟩ := Option.bind_eq_some_iff.mp hnext
  cases hphase : p.phase with
  | returned =>
    simp only [hphase, Option.some.injEq] at hrecord
    have hrecords : RecordsStep s call now hex
        (.ok (markPublished s.tables p.eventId p.fence now)) := recordsStep_markPublished hp hphase
    obtain ⟨outcome, tables, hok, hstep⟩ := hrecords
    exact ⟨p, outcome, tables, hp, hstep, by rw [← hrecord, hok]; rfl⟩
  | raised error =>
    simp only [hphase, Option.some.injEq] at hrecord
    obtain ⟨outcome, tables, hok, hstep⟩ := recordsStep_recordFailure h hp error
    exact ⟨p, outcome, tables, hp, hstep, by rw [← hrecord, hok]; rfl⟩
  | publishing => simp [hphase] at hrecord
  | done outcome => simp [hphase] at hrecord

/-- What a step may do to a publisher. -/
inductive PublisherStep (s : State) (e : Event) (call : ℕ) (p' : Publisher) : Prop
  | same : s.publishers call = some p' → PublisherStep s e call p'
  | claimed : e = .claim call p'.eventId p'.fence → 1 ≤ p'.row.attempts →
      p'.phase = .publishing → PublisherStep s e call p'
  | returned {p : Publisher} : s.publishers call = some p → e = .publishReturns call →
      p' = { p with phase := .returned } → PublisherStep s e call p'
  | other {p : Publisher} {phase : Phase} : s.publishers call = some p → p' = { p with phase } →
      phase ≠ .returned → (∀ e, phase ≠ .done (.error e)) → PublisherStep s e call p'

/-- The retries that a step leaves: those that were there, and the one that it plans. -/
inductive RetryStep (s : State) (call : ℕ) (plan : RetryPlan) : Prop
  | same : s.retries call = some plan → RetryStep s call plan
  | planned {deadLetterEventId : String} :
      deadLetterRetryPlan s.tables deadLetterEventId = .ok plan → RetryStep s call plan

theorem publisherStep_setPhase {e : Event} {phase : Phase} {call' : ℕ} {p' : Publisher}
    (hp : s.publishers call = some p) (hphase : phase ≠ .returned ∨ e = .publishReturns call)
    (herror : ∀ e, phase ≠ .done (.error e))
    (hp' : (s.setPhase call p phase).publishers call' = some p') : PublisherStep s e call' p' := by
  rcases update_eq_some hp' with ⟨rfl, hnew⟩ | ⟨-, hold⟩
  · obtain rfl := Option.some.inj hnew
    by_cases hreturned : phase = .returned
    · subst hreturned
      exact .returned hp (hphase.resolve_left fun h => h rfl) rfl
    · exact .other hp rfl hreturned herror
  · exact .same hold

theorem kept_setPhase {phase : Phase} {call' : ℕ} {p' : Publisher}
    (hp : s.publishers call = some p) (hp' : s.publishers call' = some p') :
    ∃ q, (s.setPhase call p phase).publishers call' = some q ∧ q.eventId = p'.eventId ∧
      q.fence = p'.fence := by
  by_cases hcall : call' = call
  · subst hcall
    obtain rfl := Option.some.inj (hp.symm.trans hp')
    exact ⟨{ p with phase }, by simp [State.setPhase], rfl, rfl⟩
  · exact ⟨p', by simpa only [State.setPhase, Function.update_of_ne hcall] using hp', rfl, rfl⟩

/-- What a step does to the tables, the publishers and the retries. -/
structure Step (s : State) (e : Event) (t : State) : Prop where
  tables : TablesStep s e t.tables
  publishers : ∀ call p, t.publishers call = some p → PublisherStep s e call p
  kept : ∀ call p, s.publishers call = some p →
    ∃ p', t.publishers call = some p' ∧ p'.eventId = p.eventId ∧ p'.fence = p.fence
  retries : ∀ call plan, t.retries call = some plan → RetryStep s call plan

theorem step_insert {hex eventType : String} {payload : Dict String Json} {key : Option String}
    (hnext : next s (.insert hex eventType payload key) = some t) :
    Step s (.insert hex eventType payload key) t := by
  obtain ⟨tables, hinsert, ht⟩ := Option.bind_eq_some_iff.mp hnext
  obtain rfl := Option.some.inj ht
  refine ⟨?_, fun _ _ hp => .same hp,
    fun _ p hp => ⟨p, hp, rfl, rfl⟩, fun _ _ hplan => .same hplan⟩
  simp only [OutboxTables.insertOutboxEvent, Option.ite_none_left_eq_some, Bool.or_eq_true, not_or,
    Option.some.injEq] at hinsert
  obtain ⟨⟨hfree, -⟩, rfl⟩ := hinsert
  exact .insert (by simpa using hfree) rfl rfl

theorem step_claim {eventId claimedAt : String}
    (hnext : next s (.claim call eventId claimedAt) = some t) :
    Step s (.claim call eventId claimedAt) t := by
  obtain ⟨hfree, hclaim⟩ := Option.ite_none_right_eq_some.mp hnext
  obtain ⟨⟨row', tables⟩, hupdate, ht⟩ := Option.bind_eq_some_iff.mp hclaim
  obtain rfl := Option.some.inj ht
  obtain ⟨row, hrow, hcas, rfl⟩ := updateEvent_eq_some_iff.mp hupdate
  obtain ⟨hstatus, -, rfl⟩ := casStatusUpdate_eq_some_iff.mp hcas
  refine ⟨.claim hrow (List.mem_singleton.mp hstatus) rfl rfl ⟨rfl, rfl, rfl⟩,
    fun call' p hp => ?_, fun call' p hp => ?_, fun _ _ hplan => .same hplan⟩
  · rcases update_eq_some hp with ⟨rfl, hnew⟩ | ⟨-, hold⟩
    · obtain rfl := Option.some.inj hnew
      exact .claimed rfl (Nat.le_add_left 1 _) rfl
    · exact .same hold
  · have hcall : call' ≠ call := by
      rintro rfl
      simp [hp] at hfree
    exact ⟨p, by simpa only [Function.update_of_ne hcall] using hp, rfl, rfl⟩

theorem step_publishEnds {e : Event} {phase : Phase}
    (hphase : phase ≠ .returned ∨ e = .publishReturns call)
    (herror : ∀ e, phase ≠ .done (.error e)) (hnext : s.publishEnds call phase = some t) :
    Step s e t := by
  obtain ⟨p, hp, hends⟩ := Option.bind_eq_some_iff.mp hnext
  split at hends
  · obtain rfl := Option.some.inj hends
    exact ⟨.refl, fun _ _ hp' => publisherStep_setPhase hp hphase herror hp',
      fun _ _ hp' => kept_setPhase hp hp', fun _ _ hplan => .same hplan⟩
  · exact absurd hends (by simp)

theorem step_record (h : Invariant s) (hnext : s.record call now hex = some t) :
    Step s (.record call now hex) t := by
  obtain ⟨p, outcome, tables, hp, htables, rfl⟩ := record_cases h hnext
  exact ⟨htables, fun _ _ hp' => publisherStep_setPhase hp (.inl (by simp)) (by simp) hp',
    fun _ _ hp' => kept_setPhase hp hp', fun _ _ hplan => .same hplan⟩

theorem step_reclaim {eventId claimedBefore : String}
    (hnext : s.reclaim eventId claimedBefore = some t) :
    Step s (.reclaim eventId claimedBefore) t := by
  obtain ⟨⟨row', tables⟩, hupdate, ht⟩ := Option.bind_eq_some_iff.mp hnext
  obtain rfl := Option.some.inj ht
  obtain ⟨row, hrow, hcas, rfl⟩ := updateEvent_eq_some_iff.mp hupdate
  obtain ⟨hstatus, -, rfl⟩ := casStatusUpdate_eq_some_iff.mp hcas
  exact ⟨.reclaim hrow (List.mem_singleton.mp hstatus) rfl rfl ⟨rfl, rfl, rfl⟩,
    fun _ _ hp => .same hp,
    fun _ p hp => ⟨p, hp, rfl, rfl⟩, fun _ _ hplan => .same hplan⟩

theorem step_planRetry {e : Event} {deadLetterEventId : String}
    (hnext : s.planRetry call deadLetterEventId = some t) : Step s e t := by
  rw [State.planRetry] at hnext
  split at hnext
  next plan hplanned =>
    obtain rfl := Option.some.inj hnext
    refine ⟨.refl, fun _ _ hp => .same hp,
      fun _ p hp => ⟨p, hp, rfl, rfl⟩, fun call' plan' hplan => ?_⟩
    rcases update_eq_some hplan with ⟨rfl, hnew⟩ | ⟨-, hold⟩
    · exact .planned (Option.some.inj hnew ▸ hplanned)
    · exact .same hold
  next => exact absurd hnext (by simp)

theorem tablesStep_retry {plan : RetryPlan} {tables : OutboxTables}
    (hplan : plan.deadLetterEventId = "dlq_" ++ plan.outboxEventId)
    (h : retryDeadLetterEventRows s.tables plan = .ok tables) :
    TablesStep s (.retry call) tables := by
  cases hupdate : s.tables.updateEvent plan.outboxEventId updateOutboxEventForRetry with
  | none => simp [retryDeadLetterEventRows, hupdate] at h
  | some updated =>
    obtain ⟨row', tables'⟩ := updated
    obtain ⟨row, hrow, hcas, rfl⟩ := updateEvent_eq_some_iff.mp hupdate
    obtain ⟨hstatus, -, rfl⟩ := casStatusUpdate_eq_some_iff.mp hcas
    simp only [retryDeadLetterEventRows, hupdate, OutboxTables.deleteDeadLetterEvent] at h
    split_ifs at h
    · obtain rfl : _ = tables := by simpa using h
      rw [hplan]
      exact .retry hrow (List.mem_singleton.mp hstatus) rfl rfl ⟨rfl, rfl, rfl⟩

theorem step_retry (h : Invariant s) (hnext : s.retry call = some t) : Step s (.retry call) t := by
  obtain ⟨plan, hplan, hretry⟩ := Option.bind_eq_some_iff.mp hnext
  simp only at hretry
  split at hretry
  next tables hrows =>
    obtain rfl := Option.some.inj hretry
    exact ⟨tablesStep_retry (h.retries call plan hplan) hrows, fun _ _ hp => .same hp,
      fun _ p hp => ⟨p, hp, rfl, rfl⟩, fun _ _ hplan => .same (update_none_eq_some hplan)⟩
  next =>
    obtain rfl := Option.some.inj hretry
    exact ⟨.refl, fun _ _ hp => .same hp,
    fun _ p hp => ⟨p, hp, rfl, rfl⟩, fun _ _ hplan => .same (update_none_eq_some hplan)⟩

theorem step_of_next {e : Event} (h : Invariant s) (hnext : next s e = some t) : Step s e t := by
  cases e with
  | insert hex eventType payload key => exact step_insert hnext
  | claim call eventId claimedAt => exact step_claim hnext
  | publishReturns call => exact step_publishEnds (.inr rfl) (by simp) hnext
  | publishRaises call error => exact step_publishEnds (.inl (by simp)) (by simp) hnext
  | record call now hex => exact step_record h hnext
  | reclaim eventId claimedBefore => exact step_reclaim hnext
  | planRetry call deadLetterEventId =>
    exact step_planRetry (Option.ite_none_right_eq_some.mp hnext).2
  | retry call => exact step_retry h hnext

/-! ### The invariant -/

theorem requiredString_eq_ok {value : Option String} {key eventId text : String}
    (h : requiredString value key eventId = .ok text) : value = some text := by
  cases value with
  | none => simp [requiredString] at h
  | some value =>
    simp only [requiredString] at h
    split_ifs at h
    · exact absurd h (by simp)
    · exact congrArg some (by simpa using h)

theorem deadLetterRetryPlan_eq_ok {tables : OutboxTables} (h : TablesInvariant tables)
    {deadLetterEventId : String} {plan : RetryPlan}
    (hplan : deadLetterRetryPlan tables deadLetterEventId = .ok plan) :
    plan.deadLetterEventId = "dlq_" ++ plan.outboxEventId := by
  cases hletter : tables.deadLetters.get? deadLetterEventId with
  | none => simp [deadLetterRetryPlan, hletter] at hplan
  | some letter =>
    obtain ⟨eventId, row, rfl, hsource, hrow, -⟩ := h.letter _ letter hletter
    simp only [deadLetterRetryPlan, hletter, Except.bind_eq_ok_iff] at hplan
    obtain ⟨outboxEventId, hid, hrest⟩ := hplan
    obtain rfl := Option.some.inj (hsource.symm.trans (requiredString_eq_ok hid))
    simp only [hrow, Option.isNone_some, Bool.false_eq_true, ↓reduceIte, Except.bind_eq_ok_iff,
      Except.pure_eq_ok_iff] at hrest
    obtain ⟨_, -, _, -, rfl⟩ := hrest
    rfl

theorem Invariant.initial : Invariant .initial where
  tables := .empty
  attempts call p hp := by simp [State.initial] at hp
  done call p e hp := by simp [State.initial] at hp
  retries call plan hplan := by simp [State.initial] at hplan

theorem Invariant.step {e : Event} (h : Invariant s) (hstep : Step s e t) : Invariant t where
  tables := h.tables.step hstep.tables
  attempts call p hp := by
    cases hstep.publishers call p hp with
    | same hp => exact h.attempts call p hp
    | claimed _ hattempts _ => exact hattempts
    | returned hbefore _ heq =>
      have hattempts := h.attempts call _ hbefore
      rwa [heq]
    | other hbefore heq _ _ =>
      have hattempts := h.attempts call _ hbefore
      rwa [heq]
  done call p e hp := by
    cases hstep.publishers call p hp with
    | same hp => exact h.done call p e hp
    | claimed _ _ hphase => simp [hphase]
    | returned _ _ heq => simp [heq]
    | other _ heq _ herror => exact heq ▸ herror e
  retries call plan hplan := by
    cases hstep.retries call plan hplan with
    | same hplan => exact h.retries call plan hplan
    | planned hplanned => exact deadLetterRetryPlan_eq_ok h.tables hplanned

theorem Invariant.of_run {history : List Event} (h : Run next Always .initial history s) :
    Invariant s :=
  h.invariant .initial fun _ _ _ _ hnext hinv => hinv.step (step_of_next hinv hnext)

/-! ### What the history says -/

/-- A call of `publish_event` for the event returned. -/
def PublishReturnedFor (history : List Event) (eventId : String) : Prop :=
  ∃ call claimedAt, Event.claim call eventId claimedAt ∈ history ∧
    Event.publishReturns call ∈ history

theorem PublishReturnedFor.cons {history : List Event} {eventId : String} (e : Event)
    (h : PublishReturnedFor history eventId) : PublishReturnedFor (e :: history) eventId := by
  obtain ⟨call, claimedAt, hclaim, hreturns⟩ := h
  exact ⟨call, claimedAt, List.mem_cons_of_mem e hclaim, List.mem_cons_of_mem e hreturns⟩

/-- The claims that were made: the events, and the times. -/
def claims (history : List Event) : List (String × String) :=
  history.filterMap fun
    | .claim _ eventId claimedAt => some (eventId, claimedAt)
    | _ => none

/-- No two claims of an event were made at the same time. -/
def DistinctClaims (history : List Event) : Prop := (claims history).Nodup

theorem mem_claims_iff {history : List Event} {eventId claimedAt : String} :
    (eventId, claimedAt) ∈ claims history ↔ ∃ call, .claim call eventId claimedAt ∈ history := by
  rw [claims, List.mem_filterMap]
  constructor
  · rintro ⟨e, he, hclaim⟩
    cases e with
    | claim call eventId' claimedAt' =>
      obtain ⟨rfl, rfl⟩ := Prod.mk.inj (Option.some.inj hclaim)
      exact ⟨call, he⟩
    | _ => simp at hclaim
  · rintro ⟨call, hcall⟩
    exact ⟨_, hcall, rfl⟩

/-- What the tables and the publishers hold, the history accounts for. -/
structure HistoryInvariant (history : List Event) (s : State) : Prop where
  state : Invariant s
  claimed : ∀ call p, s.publishers call = some p →
    Event.claim call p.eventId p.fence ∈ history
  returned : ∀ call p, s.publishers call = some p → p.phase = .returned →
    Event.publishReturns call ∈ history
  published : ∀ eventId row, s.tables.events.get? eventId = some row → row.status = .published →
    PublishReturnedFor history eventId

namespace HistoryInvariant

theorem initial : HistoryInvariant [] .initial where
  state := .initial
  claimed call p hp := by simp [State.initial] at hp
  returned call p hp := by simp [State.initial] at hp
  published eventId row hrow := by simp [State.initial] at hrow

theorem next {history : List Event} {e : Event} (h : HistoryInvariant history s)
    (hnext : Outbox.next s e = some t) : HistoryInvariant (e :: history) t where
  state := h.state.step (step_of_next h.state hnext)
  claimed call p hp := by
    cases (step_of_next h.state hnext).publishers call p hp with
    | same hp => exact List.mem_cons_of_mem e (h.claimed call p hp)
    | claimed he _ _ => exact List.mem_cons.mpr (.inl he.symm)
    | returned hbefore _ heq =>
      have hclaimed := h.claimed call _ hbefore
      rw [heq]
      exact List.mem_cons_of_mem e hclaimed
    | other hbefore heq _ _ =>
      have hclaimed := h.claimed call _ hbefore
      rw [heq]
      exact List.mem_cons_of_mem e hclaimed
  returned call p hp hphase := by
    cases (step_of_next h.state hnext).publishers call p hp with
    | same hp => exact List.mem_cons_of_mem e (h.returned call p hp hphase)
    | claimed _ _ hpublishing => exact absurd hphase (by simp [hpublishing])
    | returned _ he _ => exact List.mem_cons.mpr (.inl he.symm)
    | other _ heq hne _ =>
      rw [heq] at hphase
      exact absurd hphase hne
  published eventId row hrow hstatus := by
    rcases (step_of_next h.state hnext).tables.published hrow hstatus with hrow | hpublisher
    · exact (h.published eventId row hrow hstatus).cons e
    · obtain ⟨call, p, hp, rfl, hphase⟩ := hpublisher
      exact PublishReturnedFor.cons e ⟨call, p.fence, h.claimed call p hp, h.returned call p hp hphase⟩

theorem of_run {history : List Event} (h : Run Outbox.next Always .initial history s) :
    HistoryInvariant history s :=
  h.invariant_history initial fun _ _ _ _ _ hnext hinv => hinv.next hnext

end HistoryInvariant

/-! ### Fencing -/

/-- A claim that an event has lost, it does not get back. -/
theorem claimedAt_ne_of_run {later earlier : List Event} {eventId fence : String}
    (hdistinct : DistinctClaims (later ++ earlier)) (hclaimed : (eventId, fence) ∈ claims earlier)
    (hs : Invariant s) (hrun : Run next Always s later t)
    (hlost : ∀ row, s.tables.events.get? eventId = some row → row.claimedAt ≠ some fence) :
    ∀ row, t.tables.events.get? eventId = some row → row.claimedAt ≠ some fence := by
  have hinv : Invariant t ∧
      ((claims (later ++ earlier)).Nodup → ∀ row, t.tables.events.get? eventId = some row →
        row.claimedAt ≠ some fence) := by
    refine hrun.invariant_history (P := fun later t => Invariant t ∧
      ((claims (later ++ earlier)).Nodup → ∀ row, t.tables.events.get? eventId = some row →
        row.claimedAt ≠ some fence)) ⟨hs, fun _ => hlost⟩ ?_
    rintro later u e v - hnext ⟨hu, ih⟩
    have hstep := step_of_next hu hnext
    refine ⟨hu.step hstep, fun hnodup row hrow hfence => ?_⟩
    rcases hstep.tables.claimedAt hrow hfence with hrow | ⟨call, rfl⟩
    · refine ih ?_ row hrow hfence
      exact hnodup.sublist ((List.sublist_cons_self _ _).filterMap _)
    · -- the claim would be the second one of the event at that time
      have hmem : (eventId, fence) ∈ claims (later ++ earlier) := by
        rw [claims, List.filterMap_append]
        exact List.mem_append_right _ hclaimed
      exact (List.nodup_cons.mp hnodup).1 hmem
  exact hinv.2 hdistinct

/-- A publisher works on one event under one fence. -/
theorem publisher_of_run {history : List Event} (hs : Invariant s)
    (hrun : Run next Always s history t) (hp : s.publishers call = some p) :
    ∃ p', t.publishers call = some p' ∧ p'.eventId = p.eventId ∧ p'.fence = p.fence := by
  have hinv : Invariant t ∧ ∃ p', t.publishers call = some p' ∧ p'.eventId = p.eventId ∧
      p'.fence = p.fence := by
    refine hrun.invariant (P := fun t => Invariant t ∧ ∃ p', t.publishers call = some p' ∧
      p'.eventId = p.eventId ∧ p'.fence = p.fence) ⟨hs, p, hp, rfl, rfl⟩ ?_
    rintro u e v - hnext ⟨hu, p₁, hp₁, hid, hfence⟩
    have hstep := step_of_next hu hnext
    obtain ⟨p₂, hp₂, hid', hfence'⟩ := hstep.kept call p₁ hp₁
    exact ⟨hu.step hstep, p₂, hp₂, hid'.trans hid, hfence'.trans hfence⟩
  exact hinv.2

/-- The claim of a publisher that was reclaimed is gone from the row. -/
theorem claimedAt_of_reclaim {eventId claimedBefore fence : String}
    (hnext : next s (.reclaim eventId claimedBefore) = some t) :
    ∀ row, t.tables.events.get? eventId = some row → row.claimedAt ≠ some fence := by
  obtain ⟨⟨row', tables⟩, hupdate, ht⟩ := Option.bind_eq_some_iff.mp hnext
  obtain rfl := Option.some.inj ht
  obtain ⟨row, -, hcas, rfl⟩ := updateEvent_eq_some_iff.mp hupdate
  obtain ⟨-, -, rfl⟩ := casStatusUpdate_eq_some_iff.mp hcas
  intro r hr
  rw [events_setEvent, Dict.get?_insert, if_pos rfl] at hr
  obtain rfl := Option.some.inj hr
  simp

/-- A step that a publisher takes after its claim. -/
def Event.IsStepOf (call : ℕ) : Event → Prop
  | .publishReturns call' => call' = call
  | .publishRaises call' _ => call' = call
  | .record call' _ _ => call' = call
  | _ => False

/-- Without its claim a publisher changes no row. -/
theorem tables_eq_of_isStepOf {e : Event} (hs : Invariant s) (hp : s.publishers call = some p)
    (hlost : ∀ row, s.tables.events.get? p.eventId = some row → row.claimedAt ≠ some p.fence)
    (he : e.IsStepOf call) (hnext : next s e = some t) : t.tables = s.tables := by
  have hstep := (step_of_next hs hnext).tables
  generalize t.tables = tables at hstep ⊢
  by_contra hchanged
  cases e with
  | publishReturns call' =>
    cases hstep with
    | refl => exact hchanged rfl
  | publishRaises call' error =>
    cases hstep with
    | refl => exact hchanged rfl
  | record call' now hex =>
    obtain rfl : call' = call := he
    obtain ⟨p', row, hp', hrow, hclaimed⟩ := hstep.fence rfl hchanged
    obtain rfl := Option.some.inj (hp.symm.trans hp')
    exact hlost row hrow hclaimed
  | _ => exact he

/-! ### The guarantees -/

/-- What holds of the outbox after a history. -/
structure Guarantees (history : List Event) (s : State) : Prop where
  /-- An event that was inserted is there, as it was inserted, in one of the four statuses. -/
  kept : ∀ later earlier u eventId row, history = later ++ earlier →
    Run next Always .initial earlier u → u.tables.events.get? eventId = some row →
      ∃ row', s.tables.events.get? eventId = some row' ∧ SameEvent row row'
  /-- It is published only after a call of `publish_event` for it returned. -/
  published : ∀ eventId row, s.tables.events.get? eventId = some row → row.status = .published →
    PublishReturnedFor history eventId
  /-- After the reclaiming of its claim a publisher changes no row. -/
  fenced : ∀ later claimedBefore earlier u call p row,
    history = later ++ .reclaim p.eventId claimedBefore :: earlier →
    Run next Always .initial earlier u → u.publishers call = some p →
    u.tables.events.get? p.eventId = some row → row.claimedAt = some p.fence →
      ∀ e t, e.IsStepOf call → next s e = some t → t.tables = s.tables
  /-- A failed event has exactly one dead letter. -/
  deadLetter : ∀ eventId row, s.tables.events.get? eventId = some row → row.status = .failed →
    ∃! letterId, ∃ letter, s.tables.deadLetters.get? letterId = some letter ∧
      letter.sourceEventId = some eventId
  /-- The failure of the last attempt, after whatever failures and retries, fails the event. -/
  fails : ∀ call p error row now hex, s.publishers call = some p → p.phase = .raised error →
    maxOutboxPublishAttempts ≤ p.row.attempts → s.tables.events.get? p.eventId = some row →
    row.status = .publishing → row.claimedAt = some p.fence →
      ∃ t row', next s (.record call now hex) = some t ∧
        t.tables.events.get? p.eventId = some row' ∧ row'.status = .failed
  /-- No call of a publisher raised. -/
  noError : ∀ call p e, s.publishers call = some p → p.phase ≠ .done (.error e)

theorem kept_of_run {history : List Event} (hs : Invariant s) (hrun : Run next Always s history t)
    {eventId : String} {row : OutboxEvent} (hrow : s.tables.events.get? eventId = some row) :
    ∃ row', t.tables.events.get? eventId = some row' ∧ SameEvent row row' := by
  have hinv : Invariant t ∧ ∃ row', t.tables.events.get? eventId = some row' ∧
      SameEvent row row' := by
    refine hrun.invariant (P := fun t => Invariant t ∧ ∃ row',
      t.tables.events.get? eventId = some row' ∧ SameEvent row row') ⟨hs, row, hrow, .refl row⟩ ?_
    rintro u e v - hnext ⟨hu, row₁, hrow₁, hsame⟩
    have hstep := step_of_next hu hnext
    obtain ⟨row₂, hrow₂, hsame'⟩ := hstep.tables.kept hrow₁
    exact ⟨hu.step hstep, row₂, hrow₂, hsame.trans hsame'⟩
  exact hinv.2

theorem existsUnique_deadLetter (h : TablesInvariant s.tables) {eventId : String}
    {row : OutboxEvent} (hrow : s.tables.events.get? eventId = some row)
    (hstatus : row.status = .failed) :
    ∃! letterId, ∃ letter, s.tables.deadLetters.get? letterId = some letter ∧
      letter.sourceEventId = some eventId := by
  obtain ⟨letter, hletter⟩ := h.failed eventId row hrow hstatus
  obtain ⟨id, -, hid, hsource, -⟩ := h.letter _ letter hletter
  obtain rfl := dlq_append_inj hid
  refine ⟨_, ⟨letter, hletter, hsource⟩, ?_⟩
  rintro letterId ⟨letter', hletter', hsource'⟩
  obtain ⟨id', -, rfl, hid', -⟩ := h.letter letterId letter' hletter'
  rw [Option.some.inj (hid'.symm.trans hsource')]

theorem exists_failed (h : Invariant s) (hp : s.publishers call = some p)
    {error : Dict String Json} (hphase : p.phase = .raised error)
    (hattempts : maxOutboxPublishAttempts ≤ p.row.attempts) {row : OutboxEvent}
    (hrow : s.tables.events.get? p.eventId = some row) (hstatus : row.status = .publishing)
    (hclaimed : row.claimedAt = some p.fence) :
    ∃ t row', next s (.record call now hex) = some t ∧
      t.tables.events.get? p.eventId = some row' ∧ row'.status = .failed := by
  have hok : rowAttempts p.row = .ok p.row.attempts :=
    if_neg (not_lt.mpr (h.attempts call p hp))
  obtain ⟨failed, hend⟩ : ∃ failed, markOutboxEventFailed p.fence row = some failed :=
    exists_endOutboxClaim rfl hstatus hclaimed
  obtain ⟨-, -, -, hafter, -⟩ := endOutboxClaim_eq_some rfl hend
  have hupdate : s.tables.updateEvent p.eventId (markOutboxEventFailed p.fence) =
      some (failed, s.tables.setEvent p.eventId failed) :=
    updateEvent_eq_some_iff.mpr ⟨row, hrow, hend, rfl⟩
  have hletter := insertDeadLetter_eq_ok h.tables hrow (by simp [hstatus]) now hex error failed
  have hrecord : recordFailure s.tables p.eventId p.fence now hex error p.row =
      .ok (.failed ("dlq_" ++ p.eventId), ⟨s.tables.events.insert p.eventId failed,
        s.tables.deadLetters.insert ("dlq_" ++ p.eventId)
          ⟨some p.eventId, failed.eventType, failed.payload, error, now, none⟩⟩) := by
    rw [recordFailure, hok]
    simp only [bind, Except.bind, not_lt.mpr hattempts, ↓reduceIte, markFailed, hupdate, hletter]
    rfl
  have hnext : next s (.record call now hex) = some (s.finish call p
      (recordFailure s.tables p.eventId p.fence now hex error p.row)) := by
    simp only [next, State.record, hp, Option.bind_eq_bind, Option.bind_some, hphase]
  rw [hrecord] at hnext
  exact ⟨_, failed, hnext, by simp [State.finish, Dict.get?_insert], hafter⟩

/-- **Outbox events are never lost and are fenced**, after every history in which no event is
claimed twice at the same time. -/
theorem guarantees_of_run {history : List Event} (hrun : Run next Always .initial history s)
    (hdistinct : DistinctClaims history) : Guarantees history s where
  kept later earlier u eventId row hhistory hu hrow := by
    subst hhistory
    obtain ⟨u', hu', hlater⟩ := run_append_iff.mp hrun
    obtain rfl := run_unique hu hu'
    exact kept_of_run (.of_run hu) hlater hrow
  published := (HistoryInvariant.of_run hrun).published
  fenced later claimedBefore earlier u call p row hhistory hu hp hrow hclaimed := by
    subst hhistory
    obtain ⟨v, hv, hlater⟩ := run_append_iff.mp hrun
    obtain ⟨u', hu', -, hreclaim⟩ := run_cons_iff.mp hv
    obtain rfl := run_unique hu hu'
    have hclaims : (p.eventId, p.fence) ∈ claims (.reclaim p.eventId claimedBefore :: earlier) :=
      mem_claims_iff.mpr
        ⟨call, List.mem_cons_of_mem _ ((HistoryInvariant.of_run hu).claimed call p hp)⟩
    have hlost := claimedAt_ne_of_run hdistinct hclaims (.of_run hv) hlater
      (claimedAt_of_reclaim hreclaim)
    have hstep := step_of_next (.of_run hu) hreclaim
    obtain ⟨p₁, hp₁, hid₁, hfence₁⟩ := hstep.kept call p hp
    obtain ⟨p₂, hp₂, hid₂, hfence₂⟩ := publisher_of_run (.of_run hv) hlater hp₁
    intro e t he hnext
    refine tables_eq_of_isStepOf (.of_run hrun) hp₂ ?_ he hnext
    rw [hid₂, hid₁, hfence₂, hfence₁]
    exact hlost
  deadLetter eventId row hrow hstatus :=
    existsUnique_deadLetter (Invariant.of_run hrun).tables hrow hstatus
  fails call p error row now hex hp hphase hattempts hrow hstatus hclaimed :=
    exists_failed (.of_run hrun) hp hphase hattempts hrow hstatus hclaimed
  noError := (Invariant.of_run hrun).done

/-- **In every run**, also where an event is claimed twice at one time, the dead letters are those of the
failed events, and an event is published only after a call of `publish_event` for it returned. -/
theorem deadLetters_of_run {history : List Event} (hrun : Run next Always .initial history s) :
    (∀ eventId, (s.tables.deadLetters.get? ("dlq_" ++ eventId)).isSome ↔
      ∃ row, s.tables.events.get? eventId = some row ∧ row.status = .failed) ∧
    ∀ eventId row, s.tables.events.get? eventId = some row → row.status = .published →
      PublishReturnedFor history eventId := by
  have htables := (Invariant.of_run hrun).tables
  refine ⟨fun eventId => ⟨fun hsome => ?_, ?_⟩, (HistoryInvariant.of_run hrun).published⟩
  · obtain ⟨letter, hletter⟩ := Option.isSome_iff_exists.mp hsome
    obtain ⟨id, row, hid, -, hrow, hfailed⟩ := htables.letter _ letter hletter
    exact ⟨row, dlq_append_inj hid ▸ hrow, hfailed⟩
  · rintro ⟨row, hrow, hfailed⟩
    exact Option.isSome_iff_exists.mpr (htables.failed eventId row hrow hfailed)

/-! ### A publisher that comes back late -/

section LatePublisher

/-- Publisher 1 claims the event and is slow, publisher 2 takes it over and publishes it, and then
publisher 1 is done, too. -/
def lateHistory : List Event :=
  [.record 1 "00:06:10" "c", .publishReturns 1, .record 2 "00:06:03" "b", .publishReturns 2,
    .claim 2 "outbox_a" "00:06:02", .reclaim "outbox_a" "00:01:01", .claim 1 "outbox_a" "00:01:00",
    .insert "a" "order.created" ∅ none]

theorem deadLetters_lateHistory : PublishReturnedFor lateHistory "outbox_a" := by
  have hrun : Run next Always .initial lateHistory _ := run_always_iff.mpr rfl
  exact (deadLetters_of_run hrun).2 "outbox_a" _ rfl rfl

theorem guarantees_lateHistory :
    ∃ s, (s.tables.events.get? "outbox_a").map (·.publishedAt) = some (some "00:06:03") ∧
      Guarantees lateHistory s := by
  have hdistinct : (claims lateHistory).Nodup := by decide
  exact ⟨_, by decide, guarantees_of_run (run_always_iff.mpr rfl) hdistinct⟩

end LatePublisher

end Outbox

end FoundryLite.Runtime
