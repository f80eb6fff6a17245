import FoundryLite.Actions.RevertSessions

/-!
# A run is reverted at most once

However many requests ask for the revert of one run, and however their statements interleave and
their transactions fail, the inverse edits are committed at most once, and every request that is
answered is answered with the recorded result of that one commit.

The claim on the log entry carries this. It is the only statement that changes the entry of the
run, it demands an entry that nobody has claimed, and it locks the entry until the transaction
ends. A request that finds a run under its own idempotency key is answered from that run, and here
the code trusts the parameters of what it finds: it takes any run under the key that names the
reverted run in a parameter `revertOfActionRunId` for a revert. Submitted actions choose their keys
and parameters freely, so the result assumes that no such run is already stored (`Unforged`).

## Main results

* `revertedOnce_of_reachable`: from unforged rows, in every interleaving.
* `not_revertedOnce_forgedRun`: from forged rows a request reports a revert that never happened.
-/

namespace FoundryLite.Actions

open ObjectStore ReadCommitted

variable (tenantId runId : String)

/-! ### Statements -/

/-- Nobody has claimed the log entry. -/
def IsClaimable (log : ActionLogEntry) : Prop :=
  log.revertStatus = .eligible ∧ log.revertedByRunId = none

/-- The run passes for a revert. -/
def PassesForRevert (row : RunRow) : Prop :=
  row.parameters.get? "revertOfActionRunId" = some (.str runId)

/-- Whatever passes for a revert of the run, under a key of such a revert, is the run its log entry
names. -/
def Unforged (rows : Rows) : Prop :=
  ∀ key idempotencyKey id row, key.idempotencyKey = revertKey runId idempotencyKey →
    rows.row (.runIdempotency key) = some id → rows.run id = some row →
    PassesForRevert runId row →
    ∃ log, rows.log tenantId runId = some log ∧ log.revertedByRunId = some id

variable {ι : Type} [DecidableEq ι]

abbrev RevertSystem (ι : Type) :=
  System ι RowKey RowKey.Row ObjectEdit FoundryLiteError PropertyMap

/-- The session of a request committed writes, and answered. -/
def Reverted (S : RevertSystem ι) (i : ι) : Prop :=
  ∃ answer own before, S.status i = .committed answer own before ∧ own ≠ ∅

/-- The run is reverted at most once, and every answer is the recorded result of that revert. -/
structure RevertedOnce (calls : ι → RevertCall) (rows : Rows) (S : RevertSystem ι) : Prop where
  /-- At most one request commits inverse edits. -/
  single : ∀ i j, Reverted S i → Reverted S j → i = j
  /-- An answer is the stored result of the run that the log entry names. -/
  answered : ∀ i answer own before, S.status i = .committed answer own before →
    ∃ log id row, Rows.log S.db tenantId runId = some log ∧ log.revertedByRunId = some id ∧
      Rows.run S.db id = some row ∧ answer = revertResponse row runId
  /-- The log entry names the request that reverted the run, if it does not name what it did at the
  start. -/
  named : ∀ log id, Rows.log S.db tenantId runId = some log → log.revertedByRunId = some id →
    rows.log tenantId runId = some log ∨ ∃ i, Reverted S i ∧ id = (calls i).revertRunId
  /-- Nobody reverts a run that was reverted at the start. -/
  fresh : ∀ i log, Reverted S i → rows.log tenantId runId = some log → IsClaimable log

/-! ### What every commit respects -/

/-- Runs stay, and so does a log entry that has been claimed. -/
structure Respects (a b : Rows) : Prop where
  runs : ∀ id row, a.run id = some row → b.run id = some row
  log : ∀ log, a.log tenantId runId = some log → ¬ IsClaimable log → b.log tenantId runId = some log
  unforged : Unforged tenantId runId a → Unforged tenantId runId b

variable {tenantId runId} {call : RevertCall} {own w : RowWrites} {db db' : Rows}

theorem Respects.refl (a : Rows) : Respects tenantId runId a a :=
  ⟨fun _ _ h => h, fun _ h _ => h, fun h => h⟩

theorem Respects.trans (a b c : Rows) (h : Respects tenantId runId a b)
    (h' : Respects tenantId runId b c) : Respects tenantId runId a c :=
  ⟨fun id row hrow => h'.runs id row (h.runs id row hrow),
    fun log hlog hclaimed => h'.log log (h.log log hlog hclaimed) hclaimed,
    fun ha => h'.unforged (h.unforged ha)⟩

/-- The keys that inverse edits write to. -/
def IsDataKey : RowKey → Prop
  | .object _ => True
  | .link _ => True
  | .changeCounter _ => True
  | _ => False

/-- The session has recorded a run of its own. -/
structure HasRun (call : RevertCall) (row : RunRow) (own : RowWrites) (db : Rows) : Prop where
  /-- There was no such run before. -/
  fresh : db.run call.revertRunId = none
  stored : own.row (.run call.revertRunId) = some (some row)
  /-- It is the only run the session has written. -/
  runs : ∀ id, own.Locks (.run id) → id = call.revertRunId
  keys : ∀ key stored, own.row (.runIdempotency key) = some stored →
    stored = some call.revertRunId

variable {row : RunRow}

theorem HasRun.of_interferes (h : HasRun call row own db)
    (hdb : Interferes (Respects tenantId runId) own db db') : HasRun call row own db' := by
  refine ⟨?_, h.stored, h.runs, h.keys⟩
  have hlock : own.Locks (.run call.revertRunId) := by
    rw [Writes.Locks, h.stored]
    rfl
  exact (hdb.2 _ hlock).trans h.fresh

/-- Writes to other rows do not matter. -/
theorem HasRun.andThen (h : HasRun call row own db) (hruns : ∀ id, ¬ w.Locks (.run id))
    (hkeys : ∀ key, ¬ w.Locks (.runIdempotency key)) : HasRun call row (own.andThen w) db := by
  refine ⟨h.fresh, ?_, fun id hid => ?_, fun key stored hstored => ?_⟩
  · rw [Writes.row_andThen_of_not_locks (hruns _), h.stored]
  · rw [Writes.Locks, Writes.row_andThen_of_not_locks (hruns _)] at hid
    exact h.runs id hid
  · rw [Writes.row_andThen_of_not_locks (hkeys _)] at hstored
    exact h.keys key stored hstored

/-- The session has recorded a run of its own and not claimed the log entry yet. -/
def Prepared (tenantId runId : String) (call : RevertCall) (row : RunRow) (own : RowWrites)
    (db : Rows) : Prop :=
  HasRun call row own db ∧ ¬ own.Locks (.log tenantId runId)

/-- The session has recorded a run of its own and claimed the log entry, which nobody had. -/
def Claimed (tenantId runId : String) (call : RevertCall) (row : RunRow) (own : RowWrites)
    (db : Rows) : Prop :=
  HasRun call row own db ∧ ∃ log, db.log tenantId runId = some log ∧ IsClaimable log ∧
    own.row (.log tenantId runId) = some (some (markedLog call log))

theorem Prepared.of_interferes (h : Prepared tenantId runId call row own db)
    (hdb : Interferes (Respects tenantId runId) own db db') :
    Prepared tenantId runId call row own db' := ⟨h.1.of_interferes hdb, h.2⟩

theorem Claimed.of_interferes (h : Claimed tenantId runId call row own db)
    (hdb : Interferes (Respects tenantId runId) own db db') :
    Claimed tenantId runId call row own db' := by
  obtain ⟨hrun, log, hlog, hclaimable, hstored⟩ := h
  have hlock : own.Locks (.log tenantId runId) := by
    rw [Writes.Locks, hstored]
    rfl
  exact ⟨hrun.of_interferes hdb, log, (hdb.2 _ hlock).trans hlog, hclaimable, hstored⟩

/-- What a session has done when it answers: nothing, and the answer is on record, or all of the
revert, and the answer is what it has recorded. -/
def Answers (tenantId runId : String) (call : RevertCall) (answer : PropertyMap) (own : RowWrites)
    (db : Rows) : Prop :=
  (own = ∅ ∧ ∃ log id row, db.log tenantId runId = some log ∧ log.revertedByRunId = some id ∧
    db.run id = some row ∧ answer = revertResponse row runId) ∨
  ∃ row, Claimed tenantId runId call row own db ∧ answer = revertResponse row runId

/-! ### A commit respects what it has to -/

theorem laidOver_respects {answer : PropertyMap} (h : Answers tenantId runId call answer own db) :
    Respects tenantId runId db (own.laidOver db) := by
  rcases h with ⟨rfl, -⟩ | ⟨row, ⟨hrun, log, hlog, hclaimable, hstored⟩, -⟩
  · have hover : (∅ : RowWrites).laidOver db = db := by
      cases db
      simp [Writes.laidOver, EmptyCollection.emptyCollection]
    rw [hover]
    exact .refl db
  · have hruns {id : String} (hid : id ≠ call.revertRunId) : Rows.run (own.laidOver db) id = db.run id :=
      Writes.row_laidOver_of_not_locks fun hlock => hid (hrun.runs id hlock)
    have hmarked : Rows.log (own.laidOver db) tenantId runId = some (markedLog call log) := by
      change (own.row (.log tenantId runId)).getD _ = _
      rw [hstored]
      rfl
    refine ⟨fun id found hfound => ?_, fun log' hlog' hclaimed => ?_, fun hunforged => ?_⟩
    · rw [hruns, hfound]
      rintro rfl
      rw [hrun.fresh] at hfound
      nomatch hfound
    · obtain rfl : log' = log := Option.some.inj (hlog'.symm.trans hlog)
      exact absurd hclaimable hclaimed
    · intro key idempotencyKey id found hkey hindex hfound hpasses
      by_cases hid : id = call.revertRunId
      · subst hid
        exact ⟨_, hmarked, rfl⟩
      · -- an older run under such a key would have claimed the entry
        rw [hruns hid] at hfound
        have hold : db.row (.runIdempotency key) = some id := by
          change (own.row (.runIdempotency key)).getD _ = _ at hindex
          cases hown : own.row (.runIdempotency key) with
          | none => rwa [hown] at hindex
          | some stored =>
            rw [hown, hrun.keys key stored hown] at hindex
            exact absurd (Option.some.inj hindex).symm hid
        obtain ⟨log', hlog', hby⟩ := hunforged key idempotencyKey id found hkey hold hfound hpasses
        obtain rfl : log' = log := Option.some.inj (hlog'.symm.trans hlog)
        rw [hclaimable.2] at hby
        nomatch hby

/-! ### One request among others -/

section Program

variable (ontology : Ontology)

theorem writesOnly_proceed {P : RowKey → Prop} {holds : Bool} {error : FoundryLiteError} :
    (proceed holds error).WritesOnly P := by
  cases holds <;> trivial

theorem writesOnly_updateObjectRow {key : ObjectKey} {recordId : String}
    {guard : ObjectRecord → Bool} {update : ObjectUpdate} :
    (updateObjectRow tenantId key recordId guard update).WritesOnly IsDataKey := by
  refine .bind (Program.writesOnly_execute fun view k hk => ?_) fun sequence =>
    Program.writesOnly_execute fun view k hk => ?_
  · rw [Writes.locks_put_iff.mp hk]
    trivial
  · split at hk
    · split_ifs at hk
      · rw [Writes.locks_put_iff.mp hk]
        trivial
      · exact absurd hk Writes.not_locks_empty
    · exact absurd hk Writes.not_locks_empty

theorem writesOnly_readTarget {P : RowKey → Prop} {edit : ObjectEdit} :
    (readTarget tenantId edit).WritesOnly P := by
  refine .bind Program.writesOnly_query fun found => ?_
  cases found <;> trivial

theorem writesOnly_invertLoggedEdit {edit : ObjectEdit} {payload : RevertPayload} :
    (invertLoggedEdit tenantId ontology call edit payload).WritesOnly IsDataKey := by
  have hlink {linkType : LinkTypeRow} {fromObjectId toObjectId : String} {isCreation : Bool} :
      (reverseLink tenantId call edit linkType fromObjectId toObjectId isCreation).WritesOnly
        IsDataKey := by
    refine .bind writesOnly_proceed fun _ => .bind writesOnly_proceed fun _ => ?_
    cases isCreation with
    | true =>
      refine .bind (Program.writesOnly_execute fun view k hk => ?_) fun _ => writesOnly_proceed
      dsimp only at hk
      split_ifs at hk
      · rw [Writes.locks_put_iff.mp hk]
        trivial
      · exact absurd hk Writes.not_locks_empty
    | false =>
      refine Program.writesOnly_execute fun view k hk => ?_
      rw [Writes.locks_put_iff.mp hk]
      trivial
  cases payload with
  | setProperty version previous =>
    exact .bind writesOnly_readTarget fun record =>
      .bind writesOnly_updateObjectRow fun _ => writesOnly_proceed
  | createObject version =>
    exact .bind writesOnly_readTarget fun record =>
      .bind writesOnly_updateObjectRow fun _ => writesOnly_proceed
  | deleteObject version =>
    exact .bind writesOnly_readTarget fun record =>
      .bind writesOnly_updateObjectRow fun _ => writesOnly_proceed
  | createLink linkType fromObjectId toObjectId expectedActive => exact hlink
  | deleteLink linkType fromObjectId toObjectId expectedActive => exact hlink

/-- **Inverse edits write objects and links only.** -/
theorem writesOnly_revertLoggedEdit {edit : ObjectEdit} :
    (revertLoggedEdit tenantId ontology call edit).WritesOnly IsDataKey := by
  rw [revertLoggedEdit]
  cases edit.revertPayload with
  | none => trivial
  | some payload =>
    exact .bind (writesOnly_invertLoggedEdit ontology) fun _ =>
      Program.writesOnly_execute fun view k hk => absurd hk Writes.not_locks_append

theorem ensures_proceed {α : Type} {holds : Bool} {error : FoundryLiteError}
    {f : Unit → RevertProgram α} {Q : α → RowWrites → Rows → Prop}
    (h : holds = true → (f ()).Ensures (Respects tenantId runId) Q own db) :
    (proceed holds error >>= f).Ensures (Respects tenantId runId) Q own db := by
  cases holds with
  | true => exact h rfl
  | false => trivial

theorem Prepared.andThen (h : Prepared tenantId runId call row own db)
    (hw : ∀ k, w.Locks k → IsDataKey k) : Prepared tenantId runId call row (own.andThen w) db := by
  refine ⟨h.1.andThen (fun id => hw (.run id)) fun key => hw (.runIdempotency key), fun hlock => ?_⟩
  rcases Writes.locks_andThen_iff.mp hlock with hlock | hlock
  · exact h.2 hlock
  · exact hw (.log tenantId runId) hlock

theorem ensures_revertLoggedEdits {edits : List ObjectEdit}
    (h : Prepared tenantId runId call row own db) :
    (edits.mapM (revertLoggedEdit tenantId ontology call)).Ensures (Respects tenantId runId)
      (fun _ own db => Prepared tenantId runId call row own db) own db :=
  (Program.writesOnly_mapM fun _ _ => writesOnly_revertLoggedEdit ontology).ensures
    (fun _ _ _ h hdb => h.of_interferes hdb) (fun _ _ _ h hw => h.andThen hw) h

/-- **The run is recorded** where no run of its id was. -/
theorem ensures_insertRevertRun {original : RunRow} (h : ∀ k, ¬ own.Locks k) :
    (insertRevertRun tenantId runId call original).Ensures (Respects tenantId runId)
      (fun _ own db => Prepared tenantId runId call (revertRunRow tenantId runId call original)
        own db) own db := by
  refine .bind .refl (Program.ensures_execute fun db₁ h₁ db₂ h₂ => ?_)
  split_ifs at h₂ ⊢ with htaken
  · trivial
  simp only [Bool.or_eq_true, not_or, Bool.not_eq_true, Option.isSome_eq_false_iff,
    Option.isNone_iff_eq_none] at htaken
  have hfresh : Rows.run db₁ call.revertRunId = none := by
    rw [← htaken.1]
    exact (Writes.row_laidOver_of_not_locks (h _)).symm
  refine Program.Ensures.mono Respects.trans (?_ : Program.Ensures _ _ _ _ db₁) h₂
  intro db₃ h₃
  refine Prepared.of_interferes ⟨⟨hfresh, ?_, fun id hid => ?_, fun key stored hstored => ?_⟩,
    fun hlock => ?_⟩ h₃
  · rw [Writes.row_andThen, Writes.row_andThen, Writes.row_put_of_ne (by simp), Option.none_or,
      Writes.row_put_self]
    rfl
  · simp only [Writes.locks_andThen_iff, Writes.locks_put_iff, RowKey.run.injEq, h, false_or,
      reduceCtorEq, or_false] at hid
    exact hid
  · by_cases hkey : key = runKey tenantId runId call original
    · subst hkey
      rw [Writes.row_andThen, Writes.row_andThen, Writes.row_put_self] at hstored
      exact (Option.some.inj hstored).symm
    · have hlocks : (own.andThen ((Writes.put (.run call.revertRunId)
          (some (revertRunRow tenantId runId call original))).andThen
          (.put (.runIdempotency (runKey tenantId runId call original))
            (some call.revertRunId)))).Locks (.runIdempotency key) := by
        rw [Writes.Locks, hstored]
        rfl
      simp [Writes.locks_andThen_iff, Writes.locks_put_iff, h, hkey] at hlocks
  · simp [Writes.locks_andThen_iff, Writes.locks_put_iff, h] at hlock

theorem ensures_updateRunTerminal {original : RunRow} {result : PropertyMap}
    (h : Prepared tenantId runId call (revertRunRow tenantId runId call original) own db) :
    (updateRunTerminal tenantId call result).Ensures (Respects tenantId runId)
      (fun _ own db => Prepared tenantId runId call
        (completedRun call (revertRunRow tenantId runId call original) result) own db) own db := by
  refine Program.ensures_execute fun db₁ h₁ db₂ h₂ => ?_
  have hview : Rows.run (own.laidOver db₁) call.revertRunId =
      some (revertRunRow tenantId runId call original) := by
    change (own.row (.run call.revertRunId)).getD _ = _
    rw [h.1.stored]
    rfl
  have hstatus : (revertRunRow tenantId runId call original).tenantId = tenantId ∧
      (revertRunRow tenantId runId call original).status ∈ actionRunSucceeded.fromStatuses :=
    ⟨rfl, by simp [revertRunRow, actionRunSucceeded]⟩
  rw [hview] at h₂ ⊢
  dsimp only at h₂ ⊢
  rw [if_pos hstatus] at h₂ ⊢
  refine Prepared.of_interferes ?_ h₂
  obtain ⟨⟨hfresh, hstored, hruns, hkeys⟩, hlog⟩ := h.of_interferes h₁
  refine ⟨⟨hfresh, ?_, fun id hid => ?_, fun key stored hstored => ?_⟩, fun hlock => ?_⟩
  · rw [Writes.row_andThen, Writes.row_put_self]
    rfl
  · rcases Writes.locks_andThen_iff.mp hid with hid | hid
    · exact hruns id hid
    · exact RowKey.run.inj (Writes.locks_put_iff.mp hid)
  · rw [Writes.row_andThen_of_not_locks (by simp [Writes.locks_put_iff])] at hstored
    exact hkeys key stored hstored
  · rcases Writes.locks_andThen_iff.mp hlock with hlock | hlock
    · exact hlog hlock
    · nomatch Writes.locks_put_iff.mp hlock

/-- **A claim that succeeds found the log entry unclaimed.** -/
theorem ensures_markLogReverted (h : Prepared tenantId runId call row own db) :
    (markLogReverted tenantId runId call).Ensures (Respects tenantId runId)
      (fun marked own db => marked = true → Claimed tenantId runId call row own db) own db := by
  refine Program.ensures_execute fun db₁ h₁ db₂ h₂ hmarked => ?_
  have hview : Rows.log (own.laidOver db₁) tenantId runId = Rows.log db₁ tenantId runId :=
    Writes.row_laidOver_of_not_locks h.2
  rw [hview] at h₂ hmarked ⊢
  cases hlog : Rows.log db₁ tenantId runId with
  | none =>
    rw [hlog] at hmarked
    nomatch hmarked
  | some log =>
    rw [hlog] at h₂ hmarked
    dsimp only at h₂ hmarked ⊢
    split_ifs at h₂ hmarked ⊢ with hclaimable
    · refine Claimed.of_interferes ⟨(h.1.of_interferes h₁).andThen ?_ ?_, log, hlog, hclaimable, ?_⟩
        h₂
      · simp [Writes.locks_put_iff]
      · simp [Writes.locks_put_iff]
      · rw [Writes.row_andThen, Writes.row_put_self]
        rfl

theorem ensures_recordRevertLog (h : Claimed tenantId runId call row own db) :
    (recordRevertLog tenantId call).Ensures (Respects tenantId runId)
      (fun _ own db => Claimed tenantId runId call row own db) own db := by
  refine .bind .refl (Program.ensures_query fun db₁ h₁ db₂ h₂ => ensures_proceed fun _ =>
    Program.ensures_execute fun db₃ h₃ db₄ h₄ => Claimed.of_interferes ?_ h₄)
  obtain ⟨hrun, log, hlog, hclaimable, hstored⟩ :=
    ((h.of_interferes h₁).of_interferes h₂).of_interferes h₃
  have hkeeps {w : RowWrites} (hw : ∀ k, w.Locks k → k = .log tenantId call.revertRunId)
      (hself : ¬ w.Locks (.log tenantId runId)) :
      Claimed tenantId runId call row (own.andThen w) db₃ := by
    refine ⟨hrun.andThen (fun id hid => ?_) fun key hkey => ?_, log, hlog, hclaimable, ?_⟩
    · nomatch hw _ hid
    · nomatch hw _ hkey
    · rwa [Writes.row_andThen_of_not_locks hself]
  dsimp only
  split_ifs with htaken
  · exact hkeeps (by simp) (by simp)
  · refine hkeeps (fun k hk => Writes.locks_put_iff.mp hk) fun hlock => htaken ?_
    -- the run of the revert is not the run that is reverted, whose entry is there
    have hsame := RowKey.log.inj (Writes.locks_put_iff.mp hlock)
    rw [← hsame.2]
    change ((own.row (.log tenantId runId)).getD _).isSome
    rw [hstored]
    rfl

/-- What is answered is what has been recorded. -/
theorem revertResponse_completedRun {original : RunRow} {editCount : ℕ} {hasEffects : Bool} :
    (Dict.ofList [("actionRunId", Json.str call.revertRunId)]).update
        (revertResult runId editCount hasEffects) =
      revertResponse (completedRun call (revertRunRow tenantId runId call original)
        (revertResult runId editCount hasEffects)) runId := by
  refine Dict.ext_get? fun key => ?_
  simp only [revertResponse, completedRun, revertRunRow, revertResult, Option.getD_some,
    Dict.get?_update, Dict.get?_ofList, Dict.lookup_cons_ite, List.lookup_nil]
  by_cases hstatus : key = "status"
  · simp [hstatus]
  · by_cases hid : key = "revertOfActionRunId"
    · simp [hid]
    · simp [hstatus, hid]

theorem ensures_finalizeRevert {original : RunRow} {editCount : ℕ}
    (h : Prepared tenantId runId call (revertRunRow tenantId runId call original) own db) :
    (finalizeRevert tenantId runId call editCount).Ensures (Respects tenantId runId)
      (Answers tenantId runId call) own db := by
  refine .bind .refl (Program.ensures_query fun db₁ h₁ db₂ h₂ => ?_)
  generalize decide (_ ≠ (0 : ℕ)) = hasEffects
  have hprepared := (h.of_interferes h₁).of_interferes h₂
  refine .bind .refl ((ensures_updateRunTerminal hprepared).imp fun _ own db hprepared => ?_)
  refine ensures_proceed fun _ => ?_
  refine .bind .refl ((ensures_markLogReverted hprepared).imp fun marked own db hmarked => ?_)
  refine ensures_proceed fun hsuccess => ?_
  refine .bind .refl ((ensures_recordRevertLog (hmarked hsuccess)).imp fun _ own db hclaimed => ?_)
  intro db' hdb
  exact .inr ⟨_, hclaimed.of_interferes hdb, revertResponse_completedRun⟩

theorem writesOnly_requireEligible {P : RowKey → Prop} {log : ActionLogEntry}
    {edits : List ObjectEdit} : (requireEligible tenantId call row log edits).WritesOnly P := by
  have hlink {linkType : LinkTypeRow} {fromObjectId toObjectId : String} {expectedActive : Bool} :
      (linkStateBlocked tenantId linkType fromObjectId toObjectId expectedActive).WritesOnly P := by
    rw [linkStateBlocked]
    split_ifs
    · trivial
    · refine .bind Program.writesOnly_query fun links => ?_
      dsimp only
      split_ifs <;> trivial
  have hobject {edit : ObjectEdit} {version : ℕ+} {shouldBeDeleted : Bool} :
      (objectStateBlocked tenantId edit version shouldBeDeleted).WritesOnly P := by
    refine .bind Program.writesOnly_query fun found => ?_
    cases found with
    | none => trivial
    | some found =>
      dsimp only
      split_ifs <;> trivial
  have hedit (edit : ObjectEdit) : (editBlocked tenantId row edit).WritesOnly P := by
    refine .bind Program.writesOnly_query fun latest => ?_
    split_ifs
    · trivial
    · cases edit.revertPayload with
      | none => trivial
      | some payload => cases payload <;> first | exact hobject | exact hlink
  have hfirst : (firstEditBlocked tenantId row edits).WritesOnly P := by
    induction edits with
    | nil => trivial
    | cons edit edits ih =>
      refine .bind (hedit edit) fun reason => ?_
      cases reason with
      | none => exact ih
      | some reason => trivial
  have hrun : (runBlocked tenantId call row log edits).WritesOnly P := by
    rw [runBlocked]
    cases policyBlocker ⟨tenantId, call.actorUserId⟩ row.toActionRun log edits with
    | none => exact hfirst
    | some reason => trivial
  refine .bind hrun fun reason => .bind Program.writesOnly_query fun hasEffects => ?_
  cases reason <;> trivial

theorem ensures_applyRevert {original : RunRow} {log : ActionLogEntry} {edits : List ObjectEdit}
    (h : ∀ k, ¬ own.Locks k) :
    (applyRevert tenantId runId ontology call original log edits).Ensures
      (Respects tenantId runId) (Answers tenantId runId call) own db := by
  have heligible : (requireEligible tenantId call original log edits).Ensures
      (Respects tenantId runId) (fun _ own _ => ∀ k, ¬ own.Locks k) own db :=
    (writesOnly_requireEligible (P := fun _ => False)).ensures (fun _ _ _ h _ => h)
      (fun own _ w h hw k hk => (Writes.locks_andThen_iff.mp hk).elim (h k) (hw k)) h
  refine .bind .refl (heligible.imp fun _ own db h => ?_)
  refine .bind .refl ((ensures_insertRevertRun h).imp fun _ own db hprepared => ?_)
  refine .bind .refl ((ensures_revertLoggedEdits ontology hprepared).imp fun _ own db h => ?_)
  exact ensures_finalizeRevert h

/-- A request that finds a run under its key finds the one the log entry names. -/
theorem ensures_existingRevert {original : RunRow} (hunforged : Unforged tenantId runId db) :
    (existingRevert tenantId runId call original).Ensures (Respects tenantId runId)
      (fun existing own db => own = ∅ ∧ ∀ row, existing = some row →
        ∃ log id, Rows.log db tenantId runId = some log ∧ log.revertedByRunId = some id ∧
          Rows.run db id = some row) ∅ db := by
  refine .bind .refl (Program.ensures_query fun db₁ h₁ db₂ h₂ => ?_)
  split_ifs with hforeign
  · trivial
  intro db₃ h₃
  refine ⟨rfl, fun row hrow => ?_⟩
  obtain ⟨id, hindex, hfound⟩ := Option.bind_eq_some_iff.mp hrow
  rw [hrow] at hforeign
  have hpasses : PassesForRevert runId row := by simpa [PassesForRevert] using hforeign
  obtain ⟨log, hlog, hby⟩ := h₁.1.unforged hunforged _ call.idempotencyKey id row rfl
    (by simpa [hindex]) (by simpa [Rows.run] using hfound) hpasses
  have hclaimed : ¬ IsClaimable log := by
    rintro ⟨-, hnone⟩
    rw [hby] at hnone
    nomatch hnone
  have hlater := Respects.trans _ _ _ h₂.1 h₃.1
  exact ⟨log, id, hlater.log log hlog hclaimed, hby,
    hlater.runs id row (by simpa [Rows.run] using hfound)⟩

/-- **One request, among any others.** It answers only when it has done all of the revert, or
nothing and the answer is on record. -/
theorem ensures_revertProgram (hunforged : Unforged tenantId runId db) :
    (revertProgram tenantId runId ontology call).Ensures (Respects tenantId runId)
      (Answers tenantId runId call) ∅ db := by
  have hsource : (readRevertSource tenantId runId).Ensures (Respects tenantId runId)
      (fun _ own db => own = ∅ ∧ Unforged tenantId runId db) ∅ db := by
    refine .bind .refl (Program.ensures_query fun db₁ h₁ db₂ h₂ => ?_)
    refine .bind .refl (Program.ensures_query fun db₃ h₃ db₄ h₄ => ?_)
    have hlater := Respects.trans _ _ _ (Respects.trans _ _ _ h₁.1 h₂.1)
      (Respects.trans _ _ _ h₃.1 h₄.1)
    split
    · refine .bind .refl (Program.ensures_query fun db₅ h₅ db₆ h₆ db₇ h₇ => ⟨rfl, ?_⟩)
      exact h₇.1.unforged (h₆.1.unforged (h₅.1.unforged (hlater.unforged hunforged)))
    · trivial
  refine ensures_proceed fun _ => .bind .refl (hsource.imp ?_)
  rintro ⟨original, log, edits⟩ _ db ⟨rfl, hunforged⟩
  refine .bind .refl ((ensures_existingRevert hunforged).imp ?_)
  rintro existing _ db ⟨rfl, hexisting⟩
  cases existing with
  | none => exact ensures_applyRevert ontology fun _ => Writes.not_locks_empty
  | some row =>
    intro db' hdb
    obtain ⟨log, id, hlog, hby, hrow⟩ := hexisting row rfl
    have hclaimed : ¬ IsClaimable log := by
      rintro ⟨-, hnone⟩
      rw [hby] at hnone
      nomatch hnone
    exact .inl ⟨rfl, log, id, row, hdb.1.log log hlog hclaimed, hby, hdb.1.runs id row hrow, rfl⟩

end Program

/-! ### All requests together -/

/-- The log entry after a claim. -/
theorem Claimed.log_of_respects (h : Claimed tenantId runId call row own db)
    (hdb : Respects tenantId runId (own.laidOver db) db') :
    ∃ log, Rows.log db tenantId runId = some log ∧ IsClaimable log ∧
      Rows.log db' tenantId runId = some (markedLog call log) := by
  obtain ⟨-, log, hlog, hclaimable, hstored⟩ := h
  refine ⟨log, hlog, hclaimable, hdb.log _ ?_ ?_⟩
  · change (own.row (.log tenantId runId)).getD _ = _
    rw [hstored]
    rfl
  · rintro ⟨-, hnone⟩
    nomatch hnone

/-- The run after it was recorded. -/
theorem Claimed.run_of_respects (h : Claimed tenantId runId call row own db)
    (hdb : Respects tenantId runId (own.laidOver db) db') :
    Rows.run db' call.revertRunId = some row := by
  refine hdb.runs _ row ?_
  change (own.row (.run call.revertRunId)).getD _ = _
  rw [h.1.stored]
  rfl

/-- **Only one claim.** Once a claim is committed no other can be. -/
theorem Claimed.not_claimed_of_respects {call' : RevertCall} {row' : RunRow} {own' : RowWrites}
    (h : Claimed tenantId runId call row own db) (hdb : Respects tenantId runId (own.laidOver db) db') :
    ¬ Claimed tenantId runId call' row' own' db' := by
  rintro ⟨-, log', hlog', hclaimable, -⟩
  obtain ⟨log, -, -, hmarked⟩ := h.log_of_respects hdb
  obtain rfl : markedLog call log = log' := Option.some.inj (hmarked.symm.trans hlog')
  nomatch hclaimable.2

/-- A session that has written anything has claimed the run. -/
theorem Answers.claimed {answer : PropertyMap} (h : Answers tenantId runId call answer own db)
    (hown : own ≠ ∅) :
    ∃ row, Claimed tenantId runId call row own db ∧ answer = revertResponse row runId :=
  h.resolve_left fun hreplay => hown hreplay.1

/-- **A run is reverted at most once**, for any requests, in every interleaving of their statements
and their failures, from rows in which nothing is forged. -/
theorem revertedOnce_of_reachable {calls : ι → RevertCall} {ontology : ι → Ontology} {rows : Rows}
    {S : RevertSystem ι} (hunforged : Unforged tenantId runId rows)
    (hreach : Reachable (fun i => revertProgram tenantId runId (ontology i) (calls i)) rows S) :
    RevertedOnce tenantId runId calls rows S := by
  have hinv : Invariant (Respects tenantId runId) (fun i => Answers tenantId runId (calls i)) _ rows
      S := .of_reachable .refl .trans
    (fun i db hdb => ensures_revertProgram (ontology i) (hdb.unforged hunforged))
    (fun i answer own db _ h => laidOver_respects h) hreach
  refine ⟨?_, ?_, ?_, ?_⟩
  · rintro i j ⟨answer, own, before, hi, hown⟩ ⟨answer', own', before', hj, hown'⟩
    by_contra hne
    obtain ⟨-, hQ, -⟩ := hinv.committed i answer own before hi
    obtain ⟨-, hQ', -⟩ := hinv.committed j answer' own' before' hj
    obtain ⟨row, hclaimed, -⟩ := hQ.claimed hown
    obtain ⟨row', hclaimed', -⟩ := hQ'.claimed hown'
    rcases hinv.ordered i answer own before j answer' own' before' hne hi hj with hdb | hdb
    · exact hclaimed.not_claimed_of_respects hdb hclaimed'
    · exact hclaimed'.not_claimed_of_respects hdb hclaimed
  · intro i answer own before hi
    obtain ⟨-, hQ, hafter⟩ := hinv.committed i answer own before hi
    rcases hQ with ⟨rfl, log, id, row, hlog, hby, hrow, hanswer⟩ | ⟨row, hclaimed, hanswer⟩
    · have hnone : ¬ IsClaimable log := by
        rintro ⟨-, hnone⟩
        rw [hby] at hnone
        nomatch hnone
      exact ⟨log, id, row, hafter.log log hlog hnone, hby, hafter.runs id row hrow, hanswer⟩
    · obtain ⟨log, -, -, hmarked⟩ := hclaimed.log_of_respects hafter
      exact ⟨_, _, row, hmarked, rfl, hclaimed.run_of_respects hafter, hanswer⟩
  · intro log id hlog hby
    by_cases hsame : S.db.row (.log tenantId runId) = rows.row (.log tenantId runId)
    · exact .inl (hsame.symm.trans hlog)
    · obtain ⟨i, answer, own, before, hi, hlock⟩ := hinv.changed _ hsame
      have hown : own ≠ ∅ := by
        rintro rfl
        exact Writes.not_locks_empty hlock
      obtain ⟨-, hQ, hafter⟩ := hinv.committed i answer own before hi
      obtain ⟨row, hclaimed, -⟩ := hQ.claimed hown
      obtain ⟨log', -, -, hmarked⟩ := hclaimed.log_of_respects hafter
      obtain rfl : log = markedLog (calls i) log' := Option.some.inj (hlog.symm.trans hmarked)
      exact .inr ⟨i, ⟨answer, own, before, hi, hown⟩, (Option.some.inj hby).symm⟩
  · rintro i log ⟨answer, own, before, hi, hown⟩ hlog
    by_contra hclaimed
    obtain ⟨hbefore, hQ, -⟩ := hinv.committed i answer own before hi
    obtain ⟨row, ⟨-, log', hlog', hclaimable, -⟩, -⟩ := hQ.claimed hown
    obtain rfl : log = log' := Option.some.inj ((hbefore.log log hlog hclaimed).symm.trans hlog')
    exact hclaimed hclaimable

/-! ### A revert, and a forged one -/

/-- A run that created ticket `t-1`. -/
def ticketRun : RunRow where
  id := "run-1"
  tenantId := "acme"
  actorUserId := "kim"
  status := .succeeded
  completedAt := some "10:00"
  actionTypeId := "open-ticket"
  idempotencyKey := "first"
  parameters := ∅
  result := none

def ticketTypeId : ObjectTypeId := ⟨⟨"ticket-v1", by decide⟩, ⟨"Ticket", by decide⟩⟩

def openTicketRecord : ObjectRecord :=
  { objectCreateValues ⟨"row-1", "acme", ticketTypeId, "t-1", ∅, "10:00"⟩ 1 with
    indexVersion := activeIndexName }

def openTicketEdit : ObjectEdit where
  id := "edit-1"
  tenantId := "acme"
  actionRunId := "run-1"
  objectType := ticketTypeId
  objectId := "t-1"
  editType := .edit .createObject
  patch := ∅
  previousValues := ∅
  actorUserId := "kim"
  idempotencyKey := "op-1"
  createdAt := "10:00"
  revertPayload := some createdObjectRevertPayload

/-- The run, its log entry and its object, and any further runs. -/
def ticketRows (others : List RunRow) : Rows where
  row
    | .run id => (ticketRun :: others).find? fun run => run.id = id
    | .runIdempotency key =>
      ((ticketRun :: others).find? fun run =>
        (⟨run.tenantId, run.actionTypeId, run.actorUserId, run.idempotencyKey⟩ : RunKey) = key).map
          (·.id)
    | .log tenantId actionRunId =>
      if tenantId = "acme" ∧ actionRunId = "run-1" then
        some ⟨"acme", "run-1", .succeeded, true, .eligible, none⟩
      else none
    | .effectReceipts _ _ => (0 : ℕ)
    | .object key => if key = openTicketRecord.identity then some openTicketRecord else none
    | .link _ => []
    | .changeCounter _ => (1 : ℕ)
  journal := [openTicketEdit]

def kimsRevert : RevertCall where
  actorUserId := "kim"
  idempotencyKey := "k"
  revertRunId := "run-2"
  editId := fun edit => edit.id ++ "-inverse"
  linkRecordId := fun edit => edit.id ++ "-link"
  nowAt := fun _ => "11:00"
  completedAt := "11:00"

def noOntology : Ontology where
  activeObjectType _ := none
  linkType _ := none
  properties _ := []
  apiName_of_activeObjectType h := nomatch h
  apiName_of_linkType h := nomatch h

/-- A run of the same action type, submitted under a key and with a parameter that make it pass for
a revert. -/
def forgedRun : RunRow :=
  { ticketRun with
    id := "run-3"
    idempotencyKey := "revert:run-1:k"
    parameters := Dict.ofList [("revertOfActionRunId", .str "run-1")] }

theorem unforged_ticketRows : Unforged "acme" "run-1" (ticketRows []) := by
  intro key idempotencyKey id row _ _ hrow hpasses
  have hfind : [ticketRun].find? (fun run => run.id = id) = some row := hrow
  have hmem := List.mem_of_find?_eq_some hfind
  obtain rfl : row = ticketRun := by simpa using hmem
  nomatch (hpasses : (∅ : PropertyMap).get? _ = some _)

/-- Kim's request alone: it writes, and it answers. -/
theorem revertedOnce_kimsRevert :
    ∃ S : RevertSystem Unit, Reachable (fun _ => revertProgram "acme" "run-1" noOntology kimsRevert)
        (ticketRows []) S ∧ Reverted S () ∧
      RevertedOnce "acme" "run-1" (fun _ => kimsRevert) (ticketRows []) S := by
  cases hrun : (revertProgram "acme" "run-1" noOntology kimsRevert).run ∅ (ticketRows []) with
  | error error =>
    have hok : ((revertProgram "acme" "run-1" noOntology kimsRevert).run ∅
      (ticketRows [])).isOk = true := by decide
    rw [hrun] at hok
    nomatch hok
  | ok result =>
    obtain ⟨answer, own⟩ := result
    have hwritten : ((revertProgram "acme" "run-1" noOntology kimsRevert).run ∅
        (ticketRows [])).toOption.any (fun r => (r.2.row (.run "run-2")).isSome) = true := by decide
    rw [hrun] at hwritten
    obtain ⟨S, hreach, -, hstatus, -⟩ :=
      exists_reachable_of_run (fun _ => revertProgram "acme" "run-1" noOntology kimsRevert) () hrun
    refine ⟨S, hreach, ⟨answer, own, _, hstatus, ?_⟩,
      revertedOnce_of_reachable unforged_ticketRows hreach⟩
    rintro rfl
    nomatch hwritten

/-- **A forged run is taken for a revert.** The request is answered with success, nothing is
reverted, and the run may still be reverted. -/
theorem not_revertedOnce_forgedRun :
    ∃ S : RevertSystem Unit, Reachable (fun _ => revertProgram "acme" "run-1" noOntology kimsRevert)
        (ticketRows [forgedRun]) S ∧
      (∃ answer own before, S.status () = .committed answer own before ∧
        answer.get? "status" = some (.str "succeeded")) ∧
      (∃ log, Rows.log S.db "acme" "run-1" = some log ∧ IsClaimable log) ∧
      ¬ RevertedOnce "acme" "run-1" (fun _ => kimsRevert) (ticketRows [forgedRun]) S := by
  cases hrun : (revertProgram "acme" "run-1" noOntology kimsRevert).run ∅
      (ticketRows [forgedRun]) with
  | error error =>
    have hok : ((revertProgram "acme" "run-1" noOntology kimsRevert).run ∅
      (ticketRows [forgedRun])).isOk = true := by decide
    rw [hrun] at hok
    nomatch hok
  | ok result =>
    obtain ⟨answer, own⟩ := result
    have hresult : ((revertProgram "acme" "run-1" noOntology kimsRevert).run ∅
        (ticketRows [forgedRun])).toOption.all (fun r =>
          r.1.get? "status" = some (.str "succeeded") &&
            (r.2.row (.log "acme" "run-1")).isNone) = true := by decide
    rw [hrun] at hresult
    obtain ⟨hanswer, hlog⟩ : answer.get? "status" = some (.str "succeeded") ∧
        own.row (.log "acme" "run-1") = none := by
      simpa [Except.toOption] using hresult
    obtain ⟨S, hreach, hdb, hstatus, -⟩ :=
      exists_reachable_of_run (fun _ => revertProgram "acme" "run-1" noOntology kimsRevert) () hrun
    have hentry : Rows.log S.db "acme" "run-1" =
        some ⟨"acme", "run-1", .succeeded, true, .eligible, none⟩ := by
      rw [hdb]
      change (own.row (.log "acme" "run-1")).getD _ = _
      rw [hlog]
      rfl
    refine ⟨S, hreach, ⟨answer, own, _, hstatus, hanswer⟩, ⟨_, hentry, rfl, rfl⟩, fun h => ?_⟩
    obtain ⟨log, id, row, hfound, hby, -⟩ := h.answered () answer own _ hstatus
    obtain rfl := Option.some.inj (hentry.symm.trans hfound)
    nomatch hby

end FoundryLite.Actions
