import FoundryLite.Dataset.DeadLetterReplay

/-!
# A dead-letter record is appended at most once

The commit of a replay resolves the record, and a resolved record stays resolved: it is neither
retried nor claimed again. So at most one transaction of a replay commits, and the record is
resolved exactly when one did.

The commit writes the record under the token of its replay. A replay whose lease was taken over
finds another token there, or none, whatever it does to the dataset transaction and the run before;
its commit is undone as a whole. It can still abort the transaction that both replays work on, and
fail the run: that costs the other replay its commit, and the record another retry.

## Main results

* `Invariant.next`: what every step keeps.
* `replay_appends_once`: in every run, at most one version holds the record's row, the record is
  replayed exactly when it is committed, and a replay that lost its lease changes neither.
-/

namespace FoundryLite.RecordDlq

open Dataset (Store FinalizationRequest VersionRow Target)
open Runs

/-! ### What a step does to the datasets -/

def Committed (store : Store) (transactionId : String) : Prop :=
  ∃ tx ∈ store.transactions.rows, tx.id = transactionId ∧ tx.status = .committed

def Known (store : Store) (transactionId : String) : Prop :=
  ∃ tx ∈ store.transactions.rows, tx.id = transactionId

/-- The store after a step that added this version, or none, and committed its transaction. -/
structure StoreEffect (added : Option VersionRow) (s s' : Store) : Prop where
  committed_iff : ∀ id, Committed s' id ↔
    Committed s id ∨ ∃ version, added = some version ∧ version.transactionId = id
  known : ∀ id, Known s id → Known s' id
  versions : s'.versions.rows = s.versions.rows ++ added.toList
  fresh : ∀ version, added = some version →
    Known s version.transactionId ∧ ¬ Committed s version.transactionId

variable {s s' : Store} {added : Option VersionRow} {transactionId : String}

theorem StoreEffect.refl (s : Store) : StoreEffect none s s where
  committed_iff id := by simp
  known id h := h
  versions := by simp
  fresh version h := by simp at h

theorem storeEffect_open {target : Target} {txType : Dataset.TxType} {id : String}
    (h : Dataset.openDatasetTransaction target txType transactionId s = .ok (id, s')) :
    StoreEffect none s s' ∧ ¬ Known s transactionId ∧ Known s' transactionId := by
  obtain ⟨hversions, hinsert⟩ := Dataset.openDatasetTransaction_eq_ok h
  have hrows := Table.rows_of_insert?_eq_some hinsert
  have hfresh := (Table.insert?_isSome_iff.mp (by rw [hinsert]; rfl)).1
  refine ⟨⟨fun id => ?_, fun id => ?_, by simp [hversions], fun version hv => by simp at hv⟩, ?_, ?_⟩
  · simp only [Committed, hrows, List.mem_append, List.mem_singleton, reduceCtorEq, false_and,
      exists_false, or_false]
    constructor
    · rintro ⟨tx, htx | rfl, hid, hstatus⟩
      · exact ⟨tx, htx, hid, hstatus⟩
      · simp [Dataset.openRow] at hstatus
    · rintro ⟨tx, htx, hid, hstatus⟩
      exact ⟨tx, .inl htx, hid, hstatus⟩
  · rintro ⟨tx, htx, hid⟩
    exact ⟨tx, by simp [hrows, htx], hid⟩
  · rintro ⟨tx, htx, hid⟩
    exact hfresh (List.mem_map.mpr ⟨tx, htx, hid⟩)
  · exact ⟨_, by rw [hrows]; exact List.mem_append_right _ (List.mem_singleton_self _), rfl⟩

/-- A conditional update to a status other than committed, of transactions that are not
committed. -/
theorem storeEffect_cas {tenantId : String} {fromStatuses : List Dataset.TxStatus}
    {status : Dataset.TxStatus} {updated : Bool} (hfrom : Dataset.TxStatus.committed ∉ fromStatuses)
    (hstatus : status ≠ .committed)
    (h : Dataset.casStatusUpdate tenantId transactionId fromStatuses
      (Dataset.statusUpdate status) s = .ok (updated, s')) : StoreEffect none s s' := by
  obtain ⟨hversions, htransactions⟩ := Dataset.casStatusUpdate_eq_ok h
  refine ⟨fun id => ?_, fun id => ?_, by simp [hversions], fun version hv => by simp at hv⟩
  · simp only [Committed, htransactions, Table.rows_modify, List.mem_map, reduceCtorEq, false_and,
      exists_false, or_false]
    constructor
    · rintro ⟨_, ⟨tx, htx, rfl⟩, hid, hcommitted⟩
      split_ifs at hid hcommitted with hhit
      · exact absurd hcommitted hstatus
      · exact ⟨tx, htx, hid, hcommitted⟩
    · rintro ⟨tx, htx, hid, hcommitted⟩
      refine ⟨tx, ⟨tx, htx, if_neg fun hhit => ?_⟩, hid, hcommitted⟩
      simp only [Bool.and_eq_true, decide_eq_true_eq] at hhit
      exact hfrom (hcommitted ▸ hhit.2)
  · rintro ⟨tx, htx, hid⟩
    simp only [Known, htransactions, Table.rows_modify, List.mem_map]
    refine ⟨_, ⟨tx, htx, rfl⟩, ?_⟩
    split_ifs
    · exact hid
    · exact hid

theorem storeEffect_abort {tenantId : String} {updated : Bool}
    (h : Dataset.abortTransaction tenantId transactionId s = .ok (updated, s')) :
    StoreEffect none s s' :=
  storeEffect_cas (by decide) (by decide) h

theorem storeEffect_claimStale {tenantId : String} {updated : Bool}
    (h : Dataset.claimStaleOpenTransaction tenantId transactionId s = .ok (updated, s')) :
    StoreEffect none s s' :=
  storeEffect_cas (by decide) (by decide) h

theorem storeEffect_finalize {request : FinalizationRequest} {version : VersionRow}
    (h : Dataset.finalizeRequest request s = .ok (version, s')) :
    StoreEffect (some version) s s' ∧ version.transactionId = request.transactionId := by
  obtain ⟨-, tx, htx, hid, hopen, -, -, rfl, hinsert, htransactions⟩ :=
    Dataset.finalizeRequest_eq_ok h
  have hrows := Table.rows_of_insert?_eq_some hinsert
  refine ⟨⟨fun id => ?_, fun id => ?_, by simp [hrows], fun version hv => ?_⟩, rfl⟩
  · simp only [Committed, htransactions, Table.rows_updateRow, List.mem_map, Option.some.injEq,
      exists_eq_left', Dataset.versionRecord]
    constructor
    · rintro ⟨_, ⟨row, hrow, rfl⟩, hrowId, hcommitted⟩
      split_ifs at hrowId hcommitted with hhit
      · exact .inr (hid.symm.trans (hhit.symm.trans hrowId))
      · exact .inl ⟨row, hrow, hrowId, hcommitted⟩
    · rintro (⟨row, hrow, hrowId, hcommitted⟩ | rfl)
      · refine ⟨row, ⟨row, hrow, if_neg fun hhit => ?_⟩, hrowId, hcommitted⟩
        rw [Table.eq_of_pk_eq hrow htx hhit, hopen] at hcommitted
        simp at hcommitted
      · exact ⟨_, ⟨tx, htx, if_pos rfl⟩, hid, rfl⟩
  · rintro ⟨row, hrow, hrowId⟩
    simp only [Known, htransactions, Table.rows_updateRow, List.mem_map]
    refine ⟨_, ⟨row, hrow, rfl⟩, ?_⟩
    split_ifs
    · exact hrowId
    · exact hrowId
  · obtain rfl := Option.some.inj hv
    refine ⟨⟨tx, htx, hid⟩, ?_⟩
    rintro ⟨row, hrow, hrowId, hcommitted⟩
    rw [Table.eq_of_pk_eq hrow htx (hrowId.trans hid.symm), hopen] at hcommitted
    simp at hcommitted

/-! ### What a step does to the record -/

/-- The record is as it was, or neither was nor is resolved. -/
def KeptOpen (row row' : DeadLetterRecord) : Prop :=
  row' = row ∨ row.status ≠ .resolved ∧ row'.status ≠ .resolved ∧ row'.replayStatus ≠ .succeeded

variable {row row' : DeadLetterRecord} {runId token : String}

theorem keptOpen_replayRequested {idempotencyKey requestedAt : String}
    (h : replayRequested row idempotencyKey runId requestedAt = some row') :
    KeptOpen row row' ∧ row'.replayLeaseToken = none := by
  obtain ⟨hstatus, -, rfl⟩ := Runtime.casStatusUpdate_eq_some_iff.mp h
  have hquarantined : row.status = .quarantined := by simpa [replayRequestedTransition] using hstatus
  exact ⟨.inr ⟨by rw [hquarantined]; decide, by simp [replayRequestedTransition], by simp⟩, rfl⟩

theorem keptOpen_retry {read : DeadLetterRecord} {idempotencyKey requestedAt : String} {b : Bool}
    (h : retryInTransaction read row idempotencyKey runId requestedAt = .ok (row', b)) :
    KeptOpen row row' ∧
      (row'.replayLeaseToken = row.replayLeaseToken ∨ row'.replayLeaseToken = none) := by
  have hsame : row' = row → KeptOpen row row' ∧
      (row'.replayLeaseToken = row.replayLeaseToken ∨ row'.replayLeaseToken = none) := by
    rintro rfl
    exact ⟨.inl rfl, .inl rfl⟩
  unfold retryInTransaction at h
  cases hrequest : replayRequested row idempotencyKey runId requestedAt with
  | some updated =>
    simp only [hrequest] at h
    split_ifs at h
    · exact hsame (Prod.mk.inj (Except.ok.inj h)).1.symm
    · exact hsame (Prod.mk.inj (Except.ok.inj h)).1.symm
    · obtain ⟨-, -, h⟩ := Except.bind_eq_ok_iff.mp h
      obtain rfl := (Prod.mk.inj (Except.ok.inj h)).1
      exact (keptOpen_replayRequested hrequest).imp_right .inr
  | none =>
    simp only [hrequest] at h
    split_ifs at h
    · exact hsame (Prod.mk.inj (Except.ok.inj h)).1.symm
    · exact hsame (Prod.mk.inj (Except.ok.inj h)).1.symm
    · obtain ⟨-, -, h⟩ := Except.bind_eq_ok_iff.mp h
      exact hsame (Prod.mk.inj (Except.ok.inj h)).1.symm
    · obtain ⟨-, -, h⟩ := Except.bind_eq_ok_iff.mp h
      exact hsame (Prod.mk.inj (Except.ok.inj h)).1.symm
    · obtain ⟨-, -, h⟩ := Except.bind_eq_ok_iff.mp h
      obtain ⟨-, -, h⟩ := Except.bind_eq_ok_iff.mp h
      exact absurd h (by simp)

theorem keptOpen_discard {read : DeadLetterRecord} {discardedAt : String}
    (h : discardInTransaction read row discardedAt = .ok row') :
    KeptOpen row row' ∧ row'.replayLeaseToken = row.replayLeaseToken := by
  unfold discardInTransaction at h
  split_ifs at h
  · obtain rfl := Except.ok.inj h
    exact ⟨.inl rfl, rfl⟩
  · obtain ⟨-, -, h⟩ := Except.bind_eq_ok_iff.mp h
    cases hdiscard : discardDeadLetterRecord row discardedAt with
    | none => simp [hdiscard] at h
    | some updated =>
      simp only [hdiscard] at h
      obtain rfl := Except.ok.inj h
      obtain ⟨hstatus, -, rfl⟩ := Runtime.casStatusUpdate_eq_some_iff.mp hdiscard
      have hquarantined : row.status = .quarantined := by simpa [discardedTransition] using hstatus
      exact ⟨.inr ⟨by rw [hquarantined]; decide, by simp [discardedTransition], by simp⟩, rfl⟩

/-- A record that is being replayed is not resolved. -/
theorem status_ne_resolved (h : row.status ∈ [RecordStatus.replayRequested, .replaying]) :
    row.status ≠ .resolved := by
  intro heq
  rw [heq] at h
  exact absurd h (by decide)

theorem keptOpen_claim {startedAt expiresAt : String}
    (h : claimDeadLetterRecordReplay row runId token startedAt expiresAt = some row') :
    KeptOpen row row' ∧ row'.replayLeaseToken = some token := by
  obtain ⟨hstatus, -, rfl⟩ := Runtime.casStatusUpdate_eq_some_iff.mp h
  exact ⟨.inr ⟨status_ne_resolved hstatus, by simp [replayRunningTransition], by simp⟩, rfl⟩

theorem holdsReplay_iff :
    holdsReplay row runId token = true ↔
      row.replayRunId = some runId ∧ row.replayLeaseToken = some token := by
  simp [holdsReplay]

theorem keptOpen_replayFailed (h : replayFailed row runId token = some row') :
    KeptOpen row row' ∧ row.replayLeaseToken = some token ∧
      row'.replayLeaseToken = some token := by
  obtain ⟨hstatus, hholds, rfl⟩ := Runtime.casStatusUpdate_eq_some_iff.mp h
  exact ⟨.inr ⟨status_ne_resolved hstatus, by simp [replayFailedTransition], by simp⟩,
    (holdsReplay_iff.mp hholds).2, rfl⟩

/-- **A replay that succeeds holds the lease of a record that is not resolved**, and resolves it. -/
theorem replaySucceeded_eq_some (h : replaySucceeded row runId token = some row') :
    row.status ≠ .resolved ∧ row.replayRunId = some runId ∧ row.replayLeaseToken = some token ∧
      row'.status = .resolved ∧ row'.replayStatus = .succeeded ∧ row'.replayRunId = some runId ∧
      row'.replayLeaseToken = some token := by
  obtain ⟨hstatus, hholds, rfl⟩ := Runtime.casStatusUpdate_eq_some_iff.mp h
  obtain ⟨hrun, htoken⟩ := holdsReplay_iff.mp hholds
  exact ⟨status_ne_resolved hstatus, hrun, htoken, rfl, rfl, rfl, rfl⟩

/-! ### Steps that do not resolve the record -/

/-- The transaction that a replay in this phase works on. -/
def ReplayPhase.transactionId? : ReplayPhase → Option String
  | .prepared transactionId => some transactionId
  | .failing transactionId _ => some transactionId
  | _ => none

/-- The transaction of the run is this one. -/
def RunOf (s : State) (runId transactionId : String) : Prop :=
  (s.syncRuns.get? runId).map SyncRun.transactionId = some transactionId

/-- What a step does that does not resolve the record. -/
structure QuietStep (added : Option VersionRow) (s t : State) : Prop where
  record : KeptOpen s.record t.record
  /-- The lease is kept or given up, or goes to a replay that is new. -/
  lease : t.record.replayLeaseToken = s.record.replayLeaseToken ∨
    t.record.replayLeaseToken = none ∨
      ∃ token, t.record.replayLeaseToken = some token ∧ s.replays.get? token = none
  store : StoreEffect added s.store t.store
  others : ∀ version, added = some version → ¬ IsReplayTransaction s version.transactionId
  runs_kept : ∀ runId transactionId, RunOf s runId transactionId → RunOf t runId transactionId
  runs_new : ∀ runId transactionId, RunOf t runId transactionId →
    RunOf s runId transactionId ∨ ¬ Known s.store transactionId ∧ Known t.store transactionId
  one_new : ∀ runId runId' transactionId, RunOf t runId transactionId →
    RunOf t runId' transactionId → ¬ Known s.store transactionId → runId = runId'
  replays_kept : ∀ token, (s.replays.get? token).isSome → (t.replays.get? token).isSome
  /-- A replay works on the transaction that it worked on, or on the one of its run. -/
  replays : ∀ token replay transactionId, t.replays.get? token = some replay →
    replay.phase.transactionId? = some transactionId →
      (∃ before, s.replays.get? token = some before ∧ before.runId = replay.runId ∧
        before.phase.transactionId? = some transactionId) ∨ RunOf t replay.runId transactionId

variable {s t : State}

theorem KeptOpen.refl (row : DeadLetterRecord) : KeptOpen row row := .inl rfl

theorem QuietStep.refl (hknown : ∀ runId transactionId, RunOf s runId transactionId →
    Known s.store transactionId) : QuietStep none s s where
  record := .inl rfl
  lease := .inl rfl
  store := .refl _
  others version h := by simp at h
  runs_kept _ _ h := h
  runs_new _ _ h := .inl h
  one_new runId _ transactionId h _ hnew := absurd (hknown runId transactionId h) hnew
  replays_kept _ h := h
  replays token replay _ hreplay hphase := .inl ⟨replay, hreplay, rfl, hphase⟩

/-- A replay of the state goes on to a phase with the same transaction, or with none. -/
theorem phases_setPhase {u : State} {token : String} {replay : Replay} {phase : ReplayPhase}
    (hreplay : u.replays.get? token = some replay)
    (hphase : ∀ id, phase.transactionId? = some id → replay.phase.transactionId? = some id)
    {token' : String} {replay' : Replay} {id : String}
    (h : (u.setPhase token replay phase).replays.get? token' = some replay')
    (hid : replay'.phase.transactionId? = some id) :
    ∃ before, u.replays.get? token' = some before ∧ before.runId = replay'.runId ∧
      before.phase.transactionId? = some id := by
  rcases Dict.insert_eq_some h with ⟨rfl, rfl⟩ | ⟨-, h⟩
  · exact ⟨replay, hreplay, rfl, hphase id hid⟩
  · exact ⟨replay', h, rfl, hid⟩

theorem isSome_setPhase {u : State} {token token' : String} {replay : Replay} {phase : ReplayPhase}
    (h : (u.replays.get? token').isSome) :
    ((u.setPhase token replay phase).replays.get? token').isSome := by
  simp only [State.setPhase, Dict.get?_insert]
  split_ifs
  · rfl
  · exact h

/-! ### The invariant -/

structure Invariant (s : State) : Prop where
  known : ∀ runId transactionId, RunOf s runId transactionId → Known s.store transactionId
  one_run : ∀ runId runId' transactionId, RunOf s runId transactionId →
    RunOf s runId' transactionId → runId = runId'
  version_committed : ∀ version ∈ s.store.versions.rows, Committed s.store version.transactionId
  one_version : ∀ version ∈ s.store.versions.rows, ∀ version' ∈ s.store.versions.rows,
    version.transactionId = version'.transactionId → version = version'
  /-- A replay transaction that is committed is the one of the record's run. -/
  committed : ∀ runId transactionId, RunOf s runId transactionId →
    Committed s.store transactionId → s.record.status = .resolved ∧
      s.record.replayRunId = some runId
  resolved : s.record.status = .resolved → ∃ runId transactionId, RunOf s runId transactionId ∧
    Committed s.store transactionId
  succeeded_iff : s.record.replayStatus = .succeeded ↔ s.record.status = .resolved
  replays : ∀ token replay transactionId, s.replays.get? token = some replay →
    replay.phase.transactionId? = some transactionId → RunOf s replay.runId transactionId

namespace Invariant

theorem initial (id : String) (kind : Option String) : Invariant (State.initial id kind) where
  known _ _ h := by simp [RunOf, State.initial] at h
  one_run _ _ _ h _ := by simp [RunOf, State.initial] at h
  version_committed version h := absurd h List.not_mem_nil
  one_version version h := absurd h List.not_mem_nil
  committed _ _ h _ := by simp [RunOf, State.initial] at h
  resolved h := by simp [State.initial, quarantinedRecord] at h
  succeeded_iff := by simp [State.initial, quarantinedRecord]
  replays _ _ _ h _ := by simp [State.initial] at h

/-- The versions after a step. -/
theorem versions (h : Invariant s) {store : Store} (hstore : StoreEffect added s.store store) :
    (∀ version ∈ store.versions.rows, Committed store version.transactionId) ∧
      ∀ version ∈ store.versions.rows, ∀ version' ∈ store.versions.rows,
        version.transactionId = version'.transactionId → version = version' := by
  have hmem : ∀ version, version ∈ store.versions.rows ↔
      version ∈ s.store.versions.rows ∨ added = some version := by
    intro version
    rw [hstore.versions, List.mem_append, Option.mem_toList]
  refine ⟨fun version hversion => ?_, fun version hversion version' hversion' heq => ?_⟩
  · rcases (hmem version).mp hversion with hold | hnew
    · exact (hstore.committed_iff _).mpr (.inl (h.version_committed version hold))
    · exact (hstore.committed_iff _).mpr (.inr ⟨version, hnew, rfl⟩)
  · rcases (hmem version).mp hversion with hold | hnew <;>
      rcases (hmem version').mp hversion' with hold' | hnew'
    · exact h.one_version version hold version' hold' heq
    · exact absurd (heq ▸ h.version_committed version hold) (hstore.fresh version' hnew').2
    · exact absurd (heq ▸ h.version_committed version' hold') (hstore.fresh version hnew).2
    · exact Option.some.inj (hnew.symm.trans hnew')

/-- A step that commits no replay transaction. -/
theorem committed_of_quiet (hstep : QuietStep added s t) {runId id : String}
    (hrun : RunOf t runId id) (hcommitted : Committed t.store id) :
    RunOf s runId id ∧ Committed s.store id := by
  rcases (hstep.store.committed_iff id).mp hcommitted with hold | ⟨version, hadded, hid⟩
  · rcases hstep.runs_new runId id hrun with hrun' | ⟨hnew, -⟩
    · exact ⟨hrun', hold⟩
    · obtain ⟨tx, htx, hid, -⟩ := hold
      exact absurd ⟨tx, htx, hid⟩ hnew
  · rcases hstep.runs_new runId id hrun with hrun' | ⟨hnew, -⟩
    · obtain ⟨row, hrow, hrowId⟩ := Option.map_eq_some_iff.mp hrun'
      exact absurd ⟨runId, row, hrow, hrowId.trans hid.symm⟩ (hstep.others version hadded)
    · exact absurd (hid ▸ (hstep.store.fresh version hadded).1) hnew

theorem quiet (h : Invariant s) (hstep : QuietStep added s t) : Invariant t where
  known runId id hrun := by
    rcases hstep.runs_new runId id hrun with hrun | ⟨-, hknown⟩
    · exact hstep.store.known id (h.known runId id hrun)
    · exact hknown
  one_run runId runId' id hrun hrun' := by
    by_cases hknown : Known s.store id
    · rcases hstep.runs_new runId id hrun with hold | ⟨hnew, -⟩
      · rcases hstep.runs_new runId' id hrun' with hold' | ⟨hnew, -⟩
        · exact h.one_run runId runId' id hold hold'
        · exact absurd hknown hnew
      · exact absurd hknown hnew
    · exact hstep.one_new runId runId' id hrun hrun' hknown
  version_committed := (h.versions hstep.store).1
  one_version := (h.versions hstep.store).2
  committed runId id hrun hcommitted := by
    obtain ⟨hold, hcommitted⟩ := committed_of_quiet hstep hrun hcommitted
    obtain ⟨hstatus, hrunId⟩ := h.committed runId id hold hcommitted
    rcases hstep.record with heq | ⟨hne, -⟩
    · rw [heq]
      exact ⟨hstatus, hrunId⟩
    · exact absurd hstatus hne
  resolved hstatus := by
    rcases hstep.record with heq | ⟨-, hne, -⟩
    · rw [heq] at hstatus
      obtain ⟨runId, id, hrun, hcommitted⟩ := h.resolved hstatus
      exact ⟨runId, id, hstep.runs_kept runId id hrun,
        (hstep.store.committed_iff id).mpr (.inl hcommitted)⟩
    · exact absurd hstatus hne
  succeeded_iff := by
    rcases hstep.record with heq | ⟨-, hne, hne'⟩
    · rw [heq]
      exact h.succeeded_iff
    · exact iff_of_false hne' hne
  replays token replay id hreplay hphase := by
    rcases hstep.replays token replay id hreplay hphase with ⟨before, hbefore, hrunId, hid⟩ | hrun
    · exact hstep.runs_kept _ _ (hrunId ▸ h.replays token before id hbefore hid)
    · exact hrun

end Invariant

/-! ### The step that resolves the record -/

/-- A replay that holds the lease commits its transaction. -/
structure ResolvingStep (token : String) (version : VersionRow) (replay : Replay) (s t : State) :
    Prop where
  unresolved : s.record.status ≠ .resolved
  lease : s.record.replayLeaseToken = some token
  lease_kept : t.record.replayLeaseToken = some token
  resolved : t.record.status = .resolved
  succeeded : t.record.replayStatus = .succeeded
  replayRunId : t.record.replayRunId = some replay.runId
  store : StoreEffect (some version) s.store t.store
  replay_mem : s.replays.get? token = some replay
  transactionId : replay.phase.transactionId? = some version.transactionId
  runs : ∀ runId transactionId, RunOf t runId transactionId ↔ RunOf s runId transactionId
  replays_kept : ∀ token, (s.replays.get? token).isSome → (t.replays.get? token).isSome
  replays : ∀ token replay transactionId, t.replays.get? token = some replay →
    replay.phase.transactionId? = some transactionId →
      ∃ before, s.replays.get? token = some before ∧ before.runId = replay.runId ∧
        before.phase.transactionId? = some transactionId

theorem Invariant.resolving {version : VersionRow} {replay : Replay} (h : Invariant s)
    (hstep : ResolvingStep token version replay s t) : Invariant t where
  known runId id hrun := hstep.store.known id (h.known runId id ((hstep.runs runId id).mp hrun))
  one_run runId runId' id hrun hrun' :=
    h.one_run runId runId' id ((hstep.runs runId id).mp hrun) ((hstep.runs runId' id).mp hrun')
  version_committed := (h.versions hstep.store).1
  one_version := (h.versions hstep.store).2
  committed runId id hrun hcommitted := by
    have hrun := (hstep.runs runId id).mp hrun
    refine ⟨hstep.resolved, ?_⟩
    rcases (hstep.store.committed_iff id).mp hcommitted with hold | ⟨_, hadded, hid⟩
    · exact absurd (h.committed runId id hrun hold).1 hstep.unresolved
    · obtain rfl := Option.some.inj hadded
      have hmine := h.replays token replay _ hstep.replay_mem hstep.transactionId
      rw [h.one_run runId replay.runId id hrun (hid ▸ hmine)]
      exact hstep.replayRunId
  resolved _ := by
    have hmine := h.replays token replay _ hstep.replay_mem hstep.transactionId
    exact ⟨replay.runId, version.transactionId, (hstep.runs _ _).mpr hmine,
      (hstep.store.committed_iff _).mpr (.inr ⟨version, rfl, rfl⟩)⟩
  succeeded_iff := iff_of_true hstep.succeeded hstep.resolved
  replays token replay id hreplay hphase := by
    obtain ⟨before, hbefore, hrunId, hid⟩ := hstep.replays token replay id hreplay hphase
    exact (hstep.runs _ _).mpr (hrunId ▸ h.replays token before id hbefore hid)

/-! ### Sync runs keep their transactions -/

/-- Every run has the transaction that it had. -/
def SameRuns (syncRuns syncRuns' : SyncRuns) : Prop :=
  ∀ runId, (syncRuns'.get? runId).map SyncRun.transactionId =
    (syncRuns.get? runId).map SyncRun.transactionId

theorem sameRuns_insert {syncRuns : SyncRuns} {row row' : SyncRun}
    (hrow : syncRuns.get? runId = some row) (hid : row'.transactionId = row.transactionId) :
    SameRuns syncRuns (syncRuns.insert runId row') := by
  intro runId'
  rw [Dict.get?_insert]
  split_ifs with heq
  · rw [heq, hrow, Option.map_some, Option.map_some, hid]
  · rfl

theorem sameRuns_updateSyncRunTerminal {syncRuns syncRuns' : SyncRuns}
    {transition : Runtime.StatusTransition SyncRunStatus} {versionId : Option String}
    (h : updateSyncRunTerminal syncRuns runId transition versionId = some syncRuns') :
    SameRuns syncRuns syncRuns' := by
  simp only [updateSyncRunTerminal, Option.bind_eq_bind, Option.bind_eq_some_iff,
    Runtime.casStatusUpdate_eq_some_iff, Option.pure_def, Option.some.injEq] at h
  obtain ⟨row, hrow, _, ⟨-, -, rfl⟩, rfl⟩ := h
  exact sameRuns_insert hrow rfl

theorem sameRuns_failSyncRun {syncRuns syncRuns' : SyncRuns}
    (h : failSyncRun syncRuns runId = some syncRuns') : SameRuns syncRuns syncRuns' := by
  simp only [failSyncRun, Option.bind_eq_bind, Option.bind_eq_some_iff,
    Runtime.casStatusUpdate_eq_some_iff, Option.pure_def, Option.some.injEq] at h
  obtain ⟨row, hrow, _, ⟨-, -, rfl⟩, rfl⟩ := h
  exact sameRuns_insert hrow rfl

theorem sameRuns_failAssociatedSyncRun (syncRuns : SyncRuns) :
    SameRuns syncRuns (failAssociatedSyncRun syncRuns transactionId) := by
  unfold failAssociatedSyncRun
  split
  · rename_i runId row _
    cases hfail : failSyncRun syncRuns runId with
    | none => exact fun _ => rfl
    | some syncRuns' => exact sameRuns_failSyncRun hfail
  · exact fun _ => rfl

/-! ### The events -/

variable {tenantId : String} {replay : Replay}

theorem SameRuns.refl (syncRuns : SyncRuns) : SameRuns syncRuns syncRuns := fun _ => rfl

theorem SameRuns.runOf_iff (h : SameRuns s.syncRuns t.syncRuns) {id : String} :
    RunOf t runId id ↔ RunOf s runId id := by
  rw [RunOf, RunOf, h runId]

/-- A step that opens no transaction for a run. -/
theorem QuietStep.of_sameRuns (h : Invariant s) (hrecord : KeptOpen s.record t.record)
    (hlease : t.record.replayLeaseToken = s.record.replayLeaseToken ∨
      t.record.replayLeaseToken = none ∨
        ∃ token, t.record.replayLeaseToken = some token ∧ s.replays.get? token = none)
    (hstore : StoreEffect added s.store t.store)
    (hothers : ∀ version, added = some version → ¬ IsReplayTransaction s version.transactionId)
    (hruns : SameRuns s.syncRuns t.syncRuns)
    (hkept : ∀ token, (s.replays.get? token).isSome → (t.replays.get? token).isSome)
    (hreplays : ∀ token replay transactionId, t.replays.get? token = some replay →
      replay.phase.transactionId? = some transactionId →
        ∃ before, s.replays.get? token = some before ∧ before.runId = replay.runId ∧
          before.phase.transactionId? = some transactionId) : QuietStep added s t where
  record := hrecord
  lease := hlease
  store := hstore
  others := hothers
  runs_kept _ _ hrun := hruns.runOf_iff.mpr hrun
  runs_new _ _ hrun := .inl (hruns.runOf_iff.mp hrun)
  one_new runId _ id hrun _ hnew := absurd (h.known runId id (hruns.runOf_iff.mp hrun)) hnew
  replays_kept := hkept
  replays token replay id hreplay hphase := .inl (hreplays token replay id hreplay hphase)

/-- A step that only changes the record, and leaves its lease or gives it up. -/
theorem QuietStep.setRecord (h : Invariant s) {record : DeadLetterRecord}
    (hrecord : KeptOpen s.record record)
    (hlease : record.replayLeaseToken = s.record.replayLeaseToken ∨
      record.replayLeaseToken = none) : QuietStep none s (s.setRecord record) :=
  .of_sameRuns h hrecord (hlease.imp_right .inl) (.refl _) (fun _ hv => by simp at hv) (.refl _)
    (fun _ hsome => hsome) fun _ replay _ hreplay hphase => ⟨replay, hreplay, rfl, hphase⟩

/-- A step that only changes the store. -/
theorem QuietStep.setStore (h : Invariant s) {store : Store} {syncRuns : SyncRuns}
    (hstore : StoreEffect added s.store store)
    (hothers : ∀ version, added = some version → ¬ IsReplayTransaction s version.transactionId)
    (hruns : SameRuns s.syncRuns syncRuns) : QuietStep added s { s with store, syncRuns } :=
  .of_sameRuns h (.refl _) (.inl rfl) hstore hothers hruns (fun _ hsome => hsome)
    fun _ replay _ hreplay hphase => ⟨replay, hreplay, rfl, hphase⟩

/-- A step of a replay that keeps its transaction or lets go of it. -/
theorem QuietStep.setPhase (h : Invariant s) {record : DeadLetterRecord} {store : Store}
    {syncRuns : SyncRuns} {phase : ReplayPhase} (hreplay : s.replays.get? token = some replay)
    (hphase : ∀ id, phase.transactionId? = some id → replay.phase.transactionId? = some id)
    (hrecord : KeptOpen s.record record)
    (hlease : record.replayLeaseToken = s.record.replayLeaseToken)
    (hstore : StoreEffect none s.store store) (hruns : SameRuns s.syncRuns syncRuns) :
    QuietStep none s ({ s with record, store, syncRuns }.setPhase token replay phase) :=
  .of_sameRuns h hrecord (.inl hlease) hstore (fun _ hv => by simp at hv) hruns
    (fun _ hsome => isSome_setPhase hsome) fun _ _ _ hreplay' hid =>
      phases_setPhase hreplay hphase hreplay' hid

theorem preparedReplay_eq_some {transactionId : String}
    (h : s.preparedReplay token = some (replay, transactionId)) :
    s.replays.get? token = some replay ∧ replay.phase = .prepared transactionId := by
  simp only [State.preparedReplay, Option.bind_eq_bind, Option.bind_eq_some_iff] at h
  obtain ⟨found, hfound, h⟩ := h
  split at h
  · rename_i id hphase
    obtain ⟨rfl, rfl⟩ := Prod.mk.inj (Option.some.inj h)
    exact ⟨hfound, hphase⟩
  · simp at h

theorem replayIn_eq_some {isIn : ReplayPhase → Bool} (h : s.replayIn token isIn = some replay) :
    s.replays.get? token = some replay ∧ isIn replay.phase = true :=
  Option.filter_eq_some_iff.mp h

/-- A replay goes on to a transaction of its run. -/
theorem QuietStep.prepared {u : State} {id : String} (hu : QuietStep none s u)
    (hreplays : u.replays = s.replays) (hrun : RunOf u replay.runId id) :
    QuietStep none s (u.setPhase token replay (.prepared id)) :=
  { hu with
    replays_kept := fun _ hsome => isSome_setPhase (hreplays ▸ hsome)
    replays := fun token' replay' id' hreplay' hphase => by
      rcases Dict.insert_eq_some hreplay' with ⟨-, rfl⟩ | ⟨-, hreplay'⟩
      · obtain rfl := Option.some.inj hphase
        exact .inr hrun
      · exact .inl ⟨replay', hreplays ▸ hreplay', rfl, hphase⟩ }

/-- The sync run of a replay, with a transaction that is opened for it. -/
theorem quiet_openRun (h : Invariant s) {target : Target} {store : Store} {runId id : String}
    (hrun : s.syncRuns.get? runId = none)
    (hopen : Dataset.openDatasetTransaction target .append transactionId s.store =
      .ok (id, store)) :
    QuietStep none s { s with
      store, syncRuns := s.syncRuns.insert runId ⟨transactionId, .extracting, none⟩ } := by
  obtain ⟨hstore, hfresh, hknown⟩ := storeEffect_open hopen
  have hrunOf : ∀ runId' id', RunOf { s with
      store, syncRuns := s.syncRuns.insert runId ⟨transactionId, .extracting, none⟩ } runId' id' →
      runId' = runId ∧ id' = transactionId ∨ RunOf s runId' id' := by
    intro runId' id' hrunOf
    simp only [RunOf, Dict.get?_insert] at hrunOf
    split_ifs at hrunOf with heq
    · exact .inl ⟨heq, (Option.some.inj hrunOf).symm⟩
    · exact .inr hrunOf
  refine ⟨.refl _, .inl rfl, hstore, fun _ hv => by simp at hv, ?_, ?_, ?_, fun _ hsome => hsome,
    fun _ replay _ hreplay hphase => .inl ⟨replay, hreplay, rfl, hphase⟩⟩
  · intro runId' id' hrunOf'
    simp only [RunOf, Dict.get?_insert]
    split_ifs with heq
    · rw [RunOf, heq, hrun] at hrunOf'
      simp at hrunOf'
    · exact hrunOf'
  · intro runId' id' hrunOf'
    rcases hrunOf runId' id' hrunOf' with ⟨-, rfl⟩ | hold
    · exact .inr ⟨hfresh, hknown⟩
    · exact .inl hold
  · intro runId₁ runId₂ id' hrun₁ hrun₂ hnew
    rcases hrunOf runId₁ id' hrun₁ with ⟨rfl, -⟩ | hold
    · rcases hrunOf runId₂ id' hrun₂ with ⟨rfl, -⟩ | hold
      · rfl
      · exact absurd (h.known runId₂ id' hold) hnew
    · exact absurd (h.known runId₁ id' hold) hnew

/-- A replay that opens a transaction for its run, or takes up the one of its run. -/
theorem quiet_prepare (h : Invariant s) {target : Target}
    (hnext : s.prepare tenantId token target transactionId = some t) :
    QuietStep none s t ∧ t.record = s.record := by
  simp only [State.prepare, Option.bind_eq_bind, Option.bind_eq_some_iff] at hnext
  obtain ⟨replay, hin, hnext⟩ := hnext
  obtain ⟨hreplay, -⟩ := replayIn_eq_some hin
  have hfails : t = s.setPhase token replay .recording →
      QuietStep none s t ∧ t.record = s.record := by
    rintro rfl
    exact ⟨.setPhase h hreplay (fun id hid => by simp [ReplayPhase.transactionId?] at hid)
      (.refl _) rfl (.refl _) (.refl _), rfl⟩
  cases hrun : s.syncRuns.get? replay.runId with
  | some row =>
    simp only [startConnectorSyncRun, hrun] at hnext
    split_ifs at hnext
    · obtain rfl := Option.some.inj hnext
      refine ⟨.prepared (.refl h.known) rfl ?_, rfl⟩
      rw [RunOf, hrun, Option.map_some]
    · exact hfails (Option.some.inj hnext).symm
  | none =>
    simp only [startConnectorSyncRun, hrun] at hnext
    cases hopen : Dataset.openDatasetTransaction { target with tenantId } .append transactionId
        s.store with
    | ok result =>
      obtain ⟨id, store⟩ := result
      rw [hopen] at hnext
      obtain rfl := Option.some.inj hnext
      refine ⟨.prepared (quiet_openRun h hrun hopen) rfl ?_, rfl⟩
      simp [RunOf, Dict.get?_insert]
    | error error =>
      rw [hopen] at hnext
      exact hfails (Option.some.inj hnext).symm

/-- What a commit that succeeded wrote. -/
theorem finalizeReplay_eq_ok {request : FinalizationRequest}
    (h : finalizeReplay s token runId request = .ok t) :
    ∃ version store syncRuns record, Dataset.finalizeRequest request s.store = .ok (version, store) ∧
      SameRuns s.syncRuns syncRuns ∧ replaySucceeded s.record runId token = some record ∧
      t = { s with store, syncRuns, record } := by
  simp only [finalizeReplay, Except.bind_eq_ok_iff, orRaise_eq_ok_iff, Except.pure_eq_ok_iff] at h
  obtain ⟨⟨version, store⟩, hstore, syncRuns, hruns, record, hrecord, rfl⟩ := h
  exact ⟨version, store, syncRuns, record, hstore, sameRuns_updateSyncRunTerminal hruns, hrecord,
    rfl⟩

/-- **A commit resolves the record, or is undone as a whole.** -/
theorem finalise_cases (h : Invariant s) {target : Target} {versionId : String}
    {stagedFiles : List String} {isAcknowledged : Bool}
    (hnext : s.finalise tenantId token target versionId stagedFiles isAcknowledged = some t) :
    QuietStep none s t ∧ t.record = s.record ∨
      ∃ version replay, ResolvingStep token version replay s t := by
  simp only [State.finalise, Option.bind_eq_bind, Option.bind_eq_some_iff] at hnext
  obtain ⟨⟨replay, id⟩, hprepared, hnext⟩ := hnext
  obtain ⟨hreplay, hphase⟩ := preparedReplay_eq_some hprepared
  have hid : replay.phase.transactionId? = some id := by rw [hphase]; rfl
  cases hfinal : finalizeReplay s token replay.runId
      ⟨{ target with tenantId }, id, versionId, stagedFiles, true⟩ with
  | error error =>
    simp only [hfinal] at hnext
    obtain rfl := Option.some.inj hnext
    exact .inl ⟨.setPhase h hreplay (fun id' hid' => hid' ▸ hid) (.refl _) rfl (.refl _) (.refl _),
      rfl⟩
  | ok u =>
    simp only [hfinal] at hnext
    obtain rfl := Option.some.inj hnext
    obtain ⟨version, store, syncRuns, record, hstore, hruns, hrecord, rfl⟩ :=
      finalizeReplay_eq_ok hfinal
    obtain ⟨heffect, hversion⟩ := storeEffect_finalize hstore
    obtain ⟨hopen, -, hlease, hresolved, hsucceeded, hrunId, hlease'⟩ :=
      replaySucceeded_eq_some hrecord
    have hkept : ∀ id', (if isAcknowledged then ReplayPhase.ended
        else .failing id .databaseError).transactionId? = some id' →
          replay.phase.transactionId? = some id' := by
      intro id' hid'
      split_ifs at hid'
      · simp [ReplayPhase.transactionId?] at hid'
      · exact hid' ▸ hid
    exact .inr ⟨version, replay,
      { unresolved := hopen, lease := hlease, lease_kept := hlease', resolved := hresolved
        succeeded := hsucceeded, replayRunId := hrunId, store := heffect, replay_mem := hreplay
        transactionId := hversion ▸ hid
        runs := fun runId' id' => by
          rw [RunOf, RunOf]
          exact iff_of_eq (congrArg (· = some id') (hruns runId'))
        replays_kept := fun _ hsome => isSome_setPhase hsome
        replays := fun _ _ _ hreplay' hid' => phases_setPhase hreplay hkept hreplay' hid' }⟩

/-- A commit that the checks of the dataset block. -/
theorem quiet_block (h : Invariant s) (hnext : s.block tenantId token = some t) :
    QuietStep none s t ∧ t.record = s.record := by
  simp only [State.block, Option.bind_eq_bind, Option.bind_eq_some_iff] at hnext
  obtain ⟨⟨replay, id⟩, hprepared, hnext⟩ := hnext
  obtain ⟨hreplay, hphase⟩ := preparedReplay_eq_some hprepared
  have hkept : ∀ code id', (ReplayPhase.failing id code).transactionId? = some id' →
      replay.phase.transactionId? = some id' := by
    rintro code id' hid'
    rw [hphase]
    exact hid'
  split at hnext
  · rename_i store _ habort
    obtain rfl := Option.some.inj hnext
    exact ⟨.setPhase h hreplay (hkept _) (.refl _) rfl (storeEffect_abort habort) (.refl _), rfl⟩
  · obtain rfl := Option.some.inj hnext
    exact ⟨.setPhase h hreplay (hkept _) (.refl _) rfl (.refl _) (.refl _), rfl⟩

/-- The abort after a failure, of a transaction and a run that another replay may be working on. -/
theorem quiet_abort (h : Invariant s) (hnext : s.abort tenantId token = some t) :
    QuietStep none s t ∧ t.record = s.record := by
  simp only [State.abort, Option.bind_eq_bind, Option.bind_eq_some_iff] at hnext
  obtain ⟨replay, hreplay, hnext⟩ := hnext
  have hgone : ∀ phase : ReplayPhase, phase = .ended ∨ phase = .recording → ∀ id,
      phase.transactionId? = some id → replay.phase.transactionId? = some id := by
    rintro phase (rfl | rfl) id hid
    · simp [ReplayPhase.transactionId?] at hid
    · simp [ReplayPhase.transactionId?] at hid
  split at hnext
  · rename_i id code _
    cases habort : abortOpenTransactionAndFailRun tenantId s.store s.syncRuns id replay.runId with
    | none =>
      simp only [habort] at hnext
      obtain rfl := Option.some.inj hnext
      exact ⟨.setPhase h hreplay (hgone _ (.inl rfl)) (.refl _) rfl (.refl _) (.refl _), rfl⟩
    | some result =>
      obtain ⟨store, syncRuns⟩ := result
      simp only [habort] at hnext
      obtain rfl := Option.some.inj hnext
      unfold abortOpenTransactionAndFailRun at habort
      split at habort
      · rename_i isAborted store' hstore
        split_ifs at habort
        obtain ⟨syncRuns', hruns, heq⟩ := Option.map_eq_some_iff.mp habort
        obtain ⟨rfl, rfl⟩ := Prod.mk.inj heq
        refine ⟨.setPhase h hreplay (hgone _ ?_) (.refl _) rfl (storeEffect_abort hstore)
          (sameRuns_failSyncRun hruns), rfl⟩
        split_ifs
        · exact .inl rfl
        · exact .inr rfl
      · simp at habort
  · simp at hnext

theorem quiet_recordFailure (h : Invariant s) (hnext : s.recordFailure token = some t) :
    QuietStep none s t ∧ (t.record = s.record ∨ s.record.replayLeaseToken = some token) := by
  simp only [State.recordFailure, Option.bind_eq_bind, Option.bind_eq_some_iff] at hnext
  obtain ⟨replay, hin, hnext⟩ := hnext
  obtain ⟨hreplay, -⟩ := replayIn_eq_some hin
  obtain rfl := Option.some.inj hnext
  have hgone : ∀ id, ReplayPhase.ended.transactionId? = some id →
      replay.phase.transactionId? = some id := fun id hid => by
    simp [ReplayPhase.transactionId?] at hid
  cases hfailed : replayFailed s.record replay.runId token with
  | none => exact ⟨.setPhase h hreplay hgone (.refl _) rfl (.refl _) (.refl _), .inl rfl⟩
  | some record =>
    obtain ⟨hrecord, hlease, hlease'⟩ := keptOpen_replayFailed hfailed
    exact ⟨.setPhase h hreplay hgone hrecord (hlease'.trans hlease.symm) (.refl _) (.refl _),
      .inr hlease⟩

/-- The replay that a step is of. -/
def Event.replayToken? : Event → Option String
  | .prepare token _ _ => some token
  | .prepareFails token => some token
  | .stageFails token _ => some token
  | .finalise token _ _ _ _ => some token
  | .block token => some token
  | .abort token => some token
  | .recordFailure token => some token
  | .crash token => some token
  | _ => none

/-- A phase without a transaction. -/
theorem quiet_setPhase (h : Invariant s) (hreplay : s.replays.get? token = some replay)
    {phase : ReplayPhase} (hphase : phase.transactionId? = none) :
    QuietStep none s (s.setPhase token replay phase) :=
  .setPhase h hreplay (fun id hid => by simp [hphase] at hid) (.refl _) rfl (.refl _) (.refl _)

/-- **What a step of a replay does**: it leaves the record and the committed datasets as they are,
or the lease of the record is its own. -/
theorem replayStep_cases (h : Invariant s) {e : Event} (he : e.replayToken? = some token)
    (hnext : next tenantId s e = some t) :
    QuietStep none s t ∧ (t.record = s.record ∨ s.record.replayLeaseToken = some token) ∨
      ∃ version replay, ResolvingStep token version replay s t := by
  cases e with
  | prepare token' target id =>
    obtain rfl := Option.some.inj he
    exact .inl ((quiet_prepare h hnext).imp_right .inl)
  | prepareFails token' =>
    obtain rfl := Option.some.inj he
    obtain ⟨replay, hin, hnext⟩ := Option.bind_eq_some_iff.mp hnext
    obtain rfl := Option.some.inj hnext
    exact .inl ⟨quiet_setPhase h (replayIn_eq_some hin).1 rfl, .inl rfl⟩
  | stageFails token' code =>
    obtain rfl := Option.some.inj he
    obtain ⟨⟨replay, id⟩, hprepared, hnext⟩ := Option.bind_eq_some_iff.mp hnext
    obtain ⟨hreplay, hphase⟩ := preparedReplay_eq_some hprepared
    obtain rfl := Option.some.inj hnext
    refine .inl ⟨.setPhase h hreplay (fun id' hid => ?_) (.refl _) rfl (.refl _) (.refl _), .inl rfl⟩
    rw [hphase]
    exact hid
  | finalise token' target versionId stagedFiles isAcknowledged =>
    obtain rfl := Option.some.inj he
    exact (finalise_cases h hnext).imp_left (And.imp_right .inl)
  | block token' =>
    obtain rfl := Option.some.inj he
    exact .inl ((quiet_block h hnext).imp_right .inl)
  | abort token' =>
    obtain rfl := Option.some.inj he
    exact .inl ((quiet_abort h hnext).imp_right .inl)
  | recordFailure token' =>
    obtain rfl := Option.some.inj he
    exact .inl (quiet_recordFailure h hnext)
  | crash token' =>
    obtain rfl := Option.some.inj he
    obtain ⟨replay, hreplay, hnext⟩ := Option.bind_eq_some_iff.mp hnext
    obtain rfl := Option.some.inj hnext
    exact .inl ⟨quiet_setPhase h hreplay rfl, .inl rfl⟩
  | _ => simp [Event.replayToken?] at he

/-- A claim gives the lease to a new replay. -/
theorem quiet_claim (h : Invariant s) {call : ℕ} {startedAt expiresAt : String}
    (hnext : s.claim call token startedAt expiresAt = some t) : QuietStep none s t := by
  simp only [State.claim, Option.bind_eq_bind, Option.bind_eq_some_iff] at hnext
  obtain ⟨read, -, runId, -, record, hrecord, hnext⟩ := hnext
  obtain ⟨hfresh, hnext⟩ := Option.ite_none_right_eq_some.mp hnext
  obtain rfl := Option.some.inj hnext
  obtain ⟨hopen, hlease⟩ := keptOpen_claim hrecord
  refine .of_sameRuns h hopen (.inr (.inr ⟨token, hlease, Option.isNone_iff_eq_none.mp hfresh⟩))
    (.refl _) (fun _ hv => by simp at hv) (.refl _) ?_ ?_
  · intro token' hsome
    simp only [Dict.get?_insert]
    split_ifs
    · rfl
    · exact hsome
  · intro token' replay id hreplay hphase
    rcases Dict.insert_eq_some hreplay with ⟨-, rfl⟩ | ⟨-, hreplay⟩
    · simp [ReplayPhase.transactionId?] at hphase
    · exact ⟨replay, hreplay, rfl, hphase⟩

/-- An operation on the store that a step tries. -/
theorem quiet_ofStore (h : Invariant s) {α : Type} {result : Checked (α × Store)}
    (hresult : ∀ a store, result = .ok (a, store) → ∃ added, StoreEffect added s.store store ∧
      ∀ version, added = some version → ¬ IsReplayTransaction s version.transactionId) :
    ∃ added, QuietStep added s (s.ofStore result) := by
  cases result with
  | error error => exact ⟨none, .refl h.known⟩
  | ok r =>
    obtain ⟨a, store⟩ := r
    obtain ⟨added, heffect, hothers⟩ := hresult a store rfl
    exact ⟨added, .setStore h heffect hothers (.refl _)⟩

theorem isReplayTransaction_iff (s : State) (id : String) :
    isReplayTransaction s id = true ↔ IsReplayTransaction s id := by
  simp only [isReplayTransaction, List.any_eq_true, decide_eq_true_eq, Prod.exists,
    Dict.mem_entries_iff]
  rfl

/-- **What a step does.** -/
theorem next_cases (h : Invariant s) {e : Event} (hnext : next tenantId s e = some t) :
    (∃ added, QuietStep added s t) ∨
      ∃ token version replay, ResolvingStep token version replay s t := by
  cases htoken : e.replayToken? with
  | some token =>
    rcases replayStep_cases h htoken hnext with ⟨hquiet, -⟩ | ⟨version, replay, hresolving⟩
    · exact .inl ⟨none, hquiet⟩
    · exact .inr ⟨token, version, replay, hresolving⟩
  | none =>
    left
    have hnone : ∀ {store : Store}, StoreEffect none s.store store → ∃ added,
        StoreEffect added s.store store ∧ ∀ version, added = some version →
          ¬ IsReplayTransaction s version.transactionId :=
      fun heffect => ⟨none, heffect, fun _ hv => by simp at hv⟩
    cases e with
    | read call =>
      obtain rfl := Option.some.inj hnext
      exact ⟨none, .of_sameRuns h (.refl _) (.inl rfl) (.refl _) (fun _ hv => by simp at hv)
        (.refl _) (fun _ hsome => hsome) fun _ replay _ hreplay hphase =>
          ⟨replay, hreplay, rfl, hphase⟩⟩
    | retry call idempotencyKey replayRunId requestedAt =>
      obtain ⟨read, -, hnext⟩ := Option.bind_eq_some_iff.mp hnext
      split at hnext
      · rename_i record _ hretry
        obtain rfl := Option.some.inj hnext
        obtain ⟨hrecord, hlease⟩ := keptOpen_retry hretry
        exact ⟨none, .setRecord h hrecord hlease⟩
      · obtain rfl := Option.some.inj hnext
        exact ⟨none, .refl h.known⟩
    | discard call discardedAt =>
      obtain ⟨read, -, hnext⟩ := Option.bind_eq_some_iff.mp hnext
      split at hnext
      · rename_i record hdiscard
        obtain rfl := Option.some.inj hnext
        obtain ⟨hrecord, hlease⟩ := keptOpen_discard hdiscard
        exact ⟨none, .setRecord h hrecord (.inl hlease)⟩
      · obtain rfl := Option.some.inj hnext
        exact ⟨none, .refl h.known⟩
    | claim call token startedAt expiresAt => exact ⟨none, quiet_claim h hnext⟩
    | claimStale id =>
      obtain rfl := Option.some.inj hnext
      exact quiet_ofStore h fun _ _ hstore => hnone (storeEffect_claimStale hstore)
    | abortStale id =>
      rw [next] at hnext
      split at hnext
      · rename_i store hstore
        obtain rfl := Option.some.inj hnext
        exact ⟨none, .setStore h (storeEffect_abort hstore) (fun _ hv => by simp at hv)
          (sameRuns_failAssociatedSyncRun _)⟩
      · obtain rfl := Option.some.inj hnext
        exact ⟨none, .refl h.known⟩
    | openOther target txType id =>
      obtain rfl := Option.some.inj hnext
      exact quiet_ofStore h fun _ _ hstore => hnone (storeEffect_open hstore).1
    | finaliseOther request =>
      rw [next] at hnext
      split_ifs at hnext with hreplay
      obtain rfl := Option.some.inj hnext
      refine quiet_ofStore h fun version store hstore => ?_
      obtain ⟨heffect, hid⟩ := storeEffect_finalize hstore
      refine ⟨some version, heffect, fun _ hv => ?_⟩
      obtain rfl := Option.some.inj hv
      rw [hid, ← isReplayTransaction_iff]
      exact hreplay
    | _ => simp [Event.replayToken?] at htoken

theorem Invariant.next (h : Invariant s) {e : Event} (hnext : next tenantId s e = some t) :
    Invariant t := by
  rcases next_cases h hnext with ⟨added, hquiet⟩ | ⟨token, version, replay, hresolving⟩
  · exact h.quiet hquiet
  · exact h.resolving hresolving

theorem invariant_of_run {C : State → Event → Prop} {history : List Event}
    (h : Run (next tenantId) C s history t) (hstart : Invariant s) : Invariant t :=
  h.invariant hstart fun _ _ _ _ hnext hs => hs.next hnext

/-! ### A lease that was taken over -/

/-- The replay has claimed the record, and the record's lease is not its own any more. -/
def LeaseLost (s : State) (token : String) : Prop :=
  (s.replays.get? token).isSome ∧ s.record.replayLeaseToken ≠ some token

/-- **A lease that was lost is not won back.** -/
theorem LeaseLost.next (hlost : LeaseLost s token) (h : Invariant s) {e : Event}
    (hnext : next tenantId s e = some t) : LeaseLost t token := by
  obtain ⟨hsome, hne⟩ := hlost
  rcases next_cases h hnext with ⟨added, hquiet⟩ | ⟨other, version, replay, hresolving⟩
  · refine ⟨hquiet.replays_kept token hsome, fun heq => ?_⟩
    rcases hquiet.lease with hsame | hnone | ⟨fresh, hfresh, hnew⟩
    · exact hne (hsame ▸ heq)
    · rw [hnone] at heq
      simp at heq
    · rw [hfresh] at heq
      rw [← Option.some.inj heq, hnew] at hsome
      simp at hsome
  · refine ⟨hresolving.replays_kept token hsome, fun heq => ?_⟩
    rw [hresolving.lease_kept] at heq
    rw [hresolving.lease, heq] at hne
    exact hne rfl

theorem leaseLost_of_run {C : State → Event → Prop} {history : List Event}
    (hrun : Run (RecordDlq.next tenantId) C s history t) (h : Invariant s)
    (hlost : LeaseLost s token) : LeaseLost t token :=
  (hrun.invariant (P := fun s => Invariant s ∧ LeaseLost s token) ⟨h, hlost⟩
    fun _ _ _ _ hnext hs => ⟨hs.1.next hnext, hs.2.next hs.1 hnext⟩).2

/-! ### Main result -/

/-- The record, the dataset versions and the committed transactions are as they were. -/
structure Unchanged (s t : State) : Prop where
  record : t.record = s.record
  versions : t.store.versions = s.store.versions
  committed_iff : ∀ id, Committed t.store id ↔ Committed s.store id

/-- A step of a replay that lost its lease. -/
theorem unchanged_of_leaseLost (h : Invariant s) (hlost : LeaseLost s token) {e : Event}
    (he : e.replayToken? = some token) (hnext : RecordDlq.next tenantId s e = some t) :
    Unchanged s t := by
  rcases replayStep_cases h he hnext with ⟨hquiet, hrecord⟩ | ⟨version, replay, hresolving⟩
  · refine ⟨hrecord.resolve_right hlost.2, Table.ext ?_, fun id => ?_⟩
    · rw [hquiet.store.versions, Option.toList_none, List.append_nil]
    · simpa using hquiet.store.committed_iff id
  · exact absurd hresolving.lease hlost.2

/-- The row of the record is in one version at most, which a committed transaction of a replay
made, and the record is replayed exactly when there is such a transaction. -/
structure AppendedOnce (s : State) : Prop where
  one_transaction : ∀ id id', IsReplayTransaction s id → Committed s.store id →
    IsReplayTransaction s id' → Committed s.store id' → id = id'
  one_version : ∀ version ∈ s.store.versions.rows, ∀ version' ∈ s.store.versions.rows,
    IsReplayTransaction s version.transactionId → IsReplayTransaction s version'.transactionId →
      version = version'
  version_committed : ∀ version ∈ s.store.versions.rows, Committed s.store version.transactionId
  resolved_iff : s.record.status = .resolved ↔
    ∃ id, IsReplayTransaction s id ∧ Committed s.store id
  succeeded_iff : s.record.replayStatus = .succeeded ↔ s.record.status = .resolved

theorem isReplayTransaction_iff_runOf {id : String} :
    IsReplayTransaction s id ↔ ∃ runId, RunOf s runId id := by
  simp only [IsReplayTransaction, RunOf, Option.map_eq_some_iff]

theorem Invariant.appendedOnce (h : Invariant s) : AppendedOnce s := by
  have honce : ∀ id id', IsReplayTransaction s id → Committed s.store id →
      IsReplayTransaction s id' → Committed s.store id' → id = id' := by
    intro id id' hreplay hcommitted hreplay' hcommitted'
    obtain ⟨runId, hrun⟩ := isReplayTransaction_iff_runOf.mp hreplay
    obtain ⟨runId', hrun'⟩ := isReplayTransaction_iff_runOf.mp hreplay'
    have hcurrent := (h.committed runId id hrun hcommitted).2
    obtain rfl := Option.some.inj (hcurrent.symm.trans (h.committed runId' id' hrun' hcommitted').2)
    exact Option.some.inj (hrun.symm.trans hrun')
  refine ⟨honce, fun version hversion version' hversion' hreplay hreplay' => ?_,
    h.version_committed, ⟨fun hresolved => ?_, ?_⟩, h.succeeded_iff⟩
  · exact h.one_version version hversion version' hversion'
      (honce _ _ hreplay (h.version_committed version hversion) hreplay'
        (h.version_committed version' hversion'))
  · obtain ⟨runId, id, hrun, hcommitted⟩ := h.resolved hresolved
    exact ⟨id, isReplayTransaction_iff_runOf.mpr ⟨runId, hrun⟩, hcommitted⟩
  · rintro ⟨id, hreplay, hcommitted⟩
    obtain ⟨runId, hrun⟩ := isReplayTransaction_iff_runOf.mp hreplay
    exact (h.committed runId id hrun hcommitted).1

/-- **A dead-letter record is appended at most once**: in every state of every run, at most one
transaction of its replays is committed, the record is replayed exactly when one is, and a replay
that lost its lease makes no version, commits no transaction and does not change the record, then
and ever after. -/
theorem replay_appends_once {id : String} {recordDlqKind : Option String} {history : List Event}
    (h : Run (next tenantId) Always (State.initial id recordDlqKind) history s) :
    AppendedOnce s ∧ ∀ token later u e v, LeaseLost s token →
      Run (next tenantId) Always s later u → e.replayToken? = some token →
        next tenantId u e = some v → Unchanged u v := by
  have hs := invariant_of_run h (Invariant.initial id recordDlqKind)
  refine ⟨hs.appendedOnce, fun token later u e v hlost hlater he hnext => ?_⟩
  exact unchanged_of_leaseLost (invariant_of_run hlater hs) (leaseLost_of_run hlater hs hlost) he
    hnext

/-! ### A replay that is taken over -/

def ordersTarget : Target := ⟨"tenant-demo", "dataset-orders", "main"⟩

/-- Two replays of one request, of which the second takes over when the lease of the first has
expired; newest event first. -/
def takenOver : List Event :=
  [.finalise "lease-2" ordersTarget "version-1" ["part-00000.parquet"] true,
   .finalise "lease-1" ordersTarget "version-0" ["part-00000.parquet"] true,
   .prepare "lease-2" ordersTarget "tx-2",
   .claim 1 "lease-2" "2026-01-01T01:00:00Z" "2026-01-01T01:15:00Z",
   .prepare "lease-1" ordersTarget "tx-1",
   .claim 1 "lease-1" "2026-01-01T00:00:00Z" "2026-01-01T00:15:00Z",
   .read 1,
   .retry 0 "key" "run-1" "2026-01-01T00:00:00Z",
   .read 0]

theorem takenOver_resolves :
    ((Runs.replay (next "tenant-demo") (State.initial "dlq-1" none) takenOver).any fun s =>
      s.record.status = .resolved && s.record.replayLeaseToken = some "lease-2" &&
        (s.replays.get? "lease-1").isSome && s.store.versions.rows.length = 1) = true := by
  decide +kernel

/-- The second replay commits, and the first one can do nothing more to the record. -/
theorem replay_takenOver : ∃ s,
    Run (next "tenant-demo") Always (State.initial "dlq-1" none) takenOver s ∧
      s.record.status = .resolved ∧ AppendedOnce s ∧
      ∀ v, next "tenant-demo" s (.abort "lease-1") = some v → Unchanged s v := by
  obtain ⟨s, hreplay, hany⟩ := exists_replay_of_any takenOver_resolves
  simp only [Bool.and_eq_true, decide_eq_true_eq] at hany
  obtain ⟨⟨⟨hresolved, htoken⟩, hsome⟩, -⟩ := hany
  have hrun := run_always_iff.mpr hreplay
  have hlost : LeaseLost s "lease-1" := ⟨hsome, by rw [htoken]; decide⟩
  obtain ⟨honce, hunchanged⟩ := replay_appends_once hrun
  exact ⟨s, hrun, hresolved, honce, fun v hnext => hunchanged "lease-1" [] s _ v hlost .start rfl hnext⟩

end FoundryLite.RecordDlq
