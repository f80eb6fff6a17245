import FoundryLite.Actions.Commit

/-!
# No lost update between action commits

Several submissions hold plans that were built from reads made at different earlier times, and
commit them one after another, each in its own transaction. The versions recorded in the plans are
the only protection against one commit overwriting what another wrote after the first had read.

Since transactions are atomic, an interleaving of commits is a sequence of calls, each either
succeeding as a whole or leaving the store as it was (`commitCalls`). `NoLostUpdate` collects what
the protocol promises of every call in every such sequence, and `noLostUpdate` proves it.

What one edit can do to the object table is said once, by `ObjectStep`: leave it alone, insert a
row under a free key, or advance the version of the record it found by one. The rest is induction
over the edits of a plan, with the invariant that an object name is found at the same row as
before, and then over the calls.

## Main results

* `objectStep_of_applyEdit`: the step lemma.
* `objectVersion_of_mapM_applyEdit`: a successful plan advances the rows it touches by one.
* `noLostUpdate`: no interleaving of commits loses an update.
-/

namespace FoundryLite.Actions

open ObjectStore Transaction

variable {env : Environment} {ctx : RequestContext} {ontology : Ontology} {actionRunId : String}
  {s s' : Store}

/-! ### One edit -/

/-- The object a pair of a type and an id names to a tenant. -/
def nameIn (ctx : RequestContext) (target : String × String) : ObjectName :=
  ⟨ctx.tenantId, target.1, target.2⟩

/-- What one edit may do to the object table. -/
inductive ObjectStep (ctx : RequestContext) (edit : PlannedEdit) (s s' : Store) : Prop where
  | untouched (htarget : edit.target = none) (hobjects : s'.objects = s.objects)
  | created (row : ObjectRecord) (hactive : row.isActive = true)
      (hmissing : ∀ target version, edit.target = some (target, version) →
        edit.shouldCreateIfAbsent = true ∧ s.objectRecord (nameIn ctx target) = none)
      (hinsert : s.objects.insert? row = some s'.objects)
  | advanced (target : String × String) (version : ℕ) (record : ObjectRecord)
      (update : ObjectUpdate) (n : ℕ) (htarget : edit.target = some (target, version))
      (hfound : s.objectRecord (nameIn ctx target) = some record)
      (hversion : (record.objectVersion : ℕ) = version)
      (hobjects : s'.objects = s.objects.updateRow record.id (update n))
      (hnext : ((update n).apply record).objectVersion = record.objectVersion + 1)

theorem objectStep_of_modifyOne {modify : ObjectModify} {edit : CommittedEdit}
    (h : modifyOne env ctx ontology actionRunId modify s = .ok (edit, s')) :
    ObjectStep ctx (.modifyObject modify) s s' := by
  simp only [modifyOne, bind_eq_ok_iff, get_eq_ok_iff,
    Prod.mk.injEq] at h
  obtain ⟨store, s₁, ⟨rfl, rfl⟩, h⟩ := h
  cases hfound : s.objectRecord ⟨ctx.tenantId, modify.objectType, modify.objectId⟩ with
  | some record =>
    rw [hfound] at h
    obtain ⟨write, n, hversion, -, -, hnext, hobjects, -, -⟩ :=
      modifyExisting_eq_ok (Store.objectRecord_eq_some hfound).1 h
    exact .advanced _ _ record _ n rfl hfound hversion hobjects hnext
  | none =>
    rw [hfound] at h
    split_ifs at h with hcreate
    · obtain ⟨-, row, -, -, hactive, -, -, hinsert, -, -⟩ := createOne_eq_ok h
      refine .created row hactive ?_ hinsert
      rintro target version htarget
      obtain ⟨rfl, -⟩ := Prod.mk.inj (Option.some.inj htarget)
      exact ⟨hcreate, hfound⟩
    · simp at h

/-- **The step lemma**: an edit leaves the objects alone, inserts one, or advances the one it
found at the planned version. -/
theorem objectStep_of_applyEdit {planned : PlannedEdit} {edit : CommittedEdit}
    (h : applyEdit env ctx ontology actionRunId planned s = .ok (edit, s')) :
    ObjectStep ctx planned s s' := by
  cases planned with
  | createObject create =>
    obtain ⟨-, row, -, -, hactive, -, -, hinsert, -, -⟩ := createOne_eq_ok h
    exact .created row hactive (by simp [PlannedEdit.target]) hinsert
  | modifyObject modify => exact objectStep_of_modifyOne h
  | deleteObject delete =>
    obtain ⟨record, write, n, hfound, hversion, hnext, hobjects, -, -⟩ := deleteOne_eq_ok h
    exact .advanced _ _ record _ n rfl hfound hversion hobjects hnext
  | createLink link =>
    obtain ⟨row, -, hobjects, -⟩ := createLinkOne_eq_ok h
    exact .untouched rfl hobjects
  | deleteLink link =>
    obtain ⟨row, -, hobjects, -⟩ := deleteLinkOne_eq_ok h
    exact .untouched rfl hobjects

/-! ### Where a name is found -/

/-- Whether an edit is meant for the row with a given id. -/
def PlannedEdit.touches (ctx : RequestContext) (s : Store) (recordId : String)
    (edit : PlannedEdit) : Bool :=
  edit.target.any fun target =>
    (s.objectRecord (nameIn ctx target.1)).any fun record => record.id = recordId

/-- A row that is already stored is found under a name after an insertion exactly when it was
before. -/
theorem any_objectRecord_of_insert? {row record : ObjectRecord} {name : ObjectName}
    (hinsert : s.objects.insert? row = some s'.objects) (hrecord : record ∈ s.objects.rows) :
    ((s'.objectRecord name).any fun r => r.id = record.id)
      = (s.objectRecord name).any fun r => r.id = record.id := by
  rw [Store.objectRecord, Table.find?_insert? hinsert, ← Store.objectRecord]
  cases hfound : s.objectRecord name with
  | some r => rfl
  | none =>
    rw [Option.none_or]
    have hfresh : row.id ≠ record.id := by
      intro hid
      have hnot := (Table.insert?_isSome_iff.mp (by rw [hinsert]; rfl)).1
      exact hnot (hid ▸ List.mem_map_of_mem hrecord)
    split_ifs
    · simpa using hfresh
    · rfl

/-- An edit that advances a record leaves every other name where it was found. -/
theorem objectRecord_of_advanced {record : ObjectRecord} {update : ObjectUpdate} {n : ℕ}
    {target other : String × String} (hfound : s.objectRecord (nameIn ctx target) = some record)
    (hobjects : s'.objects = s.objects.updateRow record.id (update n)) (hne : target ≠ other) :
    s'.objectRecord (nameIn ctx other) = s.objectRecord (nameIn ctx other) := by
  obtain ⟨hrecord, hname, -⟩ := Store.objectRecord_eq_some hfound
  refine Store.objectRecord_congr (Store.about_of_update hobjects hrecord fun heq => hne ?_)
  rw [hname] at heq
  simp only [nameIn, ObjectName.mk.injEq] at heq
  exact Prod.ext heq.2.1 heq.2.2

/-- Another edit of the plan touches a stored row after a step exactly when it did before. -/
theorem touches_of_objectStep {edit other : PlannedEdit} {record : ObjectRecord}
    (hstep : ObjectStep ctx edit s s') (hrecord : record ∈ s.objects.rows)
    (hdisjoint : ∀ target, target ∈ edit.target.map Prod.fst →
      target ∉ other.target.map Prod.fst) :
    other.touches ctx s' record.id = other.touches ctx s record.id := by
  cases htarget : other.target with
  | none => simp [PlannedEdit.touches, htarget]
  | some target =>
    simp only [PlannedEdit.touches, htarget, Option.any_some]
    cases hstep with
    | untouched _ hobjects => rw [Store.objectRecord, Store.objectRecord, hobjects]
    | created row _ _ hinsert => exact any_objectRecord_of_insert? hinsert hrecord
    | advanced target' version found update n htarget' hfound _ hobjects _ =>
      rw [objectRecord_of_advanced hfound hobjects]
      rintro rfl
      exact hdisjoint target.1 (by simp [htarget']) (by simp [htarget])

/-! ### One plan -/

/-- The version of a stored row after one edit: advanced by one if the edit touches it. -/
theorem objectVersion_of_objectStep {edit : PlannedEdit} {record : ObjectRecord}
    (hstep : ObjectStep ctx edit s s') (hrecord : record ∈ s.objects.rows) :
    ∃ record' ∈ s'.objects.rows, record'.id = record.id ∧ record'.name = record.name ∧
      (record'.objectVersion : ℕ)
        = record.objectVersion + (if edit.touches ctx s record.id then 1 else 0) := by
  cases hstep with
  | untouched htarget hobjects =>
    refine ⟨record, hobjects ▸ hrecord, rfl, rfl, ?_⟩
    simp [PlannedEdit.touches, htarget]
  | created row _ hmissing hinsert =>
    refine ⟨record, ?_, rfl, rfl, ?_⟩
    · rw [Table.rows_of_insert?_eq_some hinsert]
      exact List.mem_append_left _ hrecord
    · have huntouched : edit.touches ctx s record.id = false := by
        cases htarget : edit.target with
        | none => simp [PlannedEdit.touches, htarget]
        | some target =>
          simp [PlannedEdit.touches, htarget, (hmissing target.1 target.2 htarget).2]
      simp [huntouched]
  | advanced target version found update n htarget hfound _ hobjects hnext =>
    have hmem := (Store.objectRecord_eq_some hfound).1
    have htouches : edit.touches ctx s record.id = decide (found.id = record.id) := by
      simp [PlannedEdit.touches, htarget, hfound]
    rw [htouches, hobjects, Table.rows_updateRow]
    by_cases hid : found.id = record.id
    · obtain rfl := Table.eq_of_pk_eq hmem hrecord hid
      refine ⟨_, List.mem_map_of_mem hrecord, ?_⟩
      simp [(update n).pk_apply, ObjectUpdate.name_apply, hnext]
    · refine ⟨_, List.mem_map_of_mem hrecord, ?_⟩
      simp [Ne.symm hid, hid]

/-- A name determines at most one target among edits with distinct targets, so a row is touched by
at most one of them. -/
theorem not_touches_of_touches {edit other : PlannedEdit} {recordId : String}
    (hdisjoint : ∀ target, target ∈ edit.target.map Prod.fst →
      target ∉ other.target.map Prod.fst) (hedit : edit.touches ctx s recordId = true) :
    other.touches ctx s recordId = false := by
  by_contra hother
  rw [Bool.not_eq_false] at hother
  obtain ⟨target, htarget, hfound⟩ := Option.any_eq_true _ _ |>.mp hedit
  obtain ⟨target', htarget', hfound'⟩ := Option.any_eq_true _ _ |>.mp hother
  obtain ⟨record, hrecord, hid⟩ := Option.any_eq_true _ _ |>.mp hfound
  obtain ⟨record', hrecord', hid'⟩ := Option.any_eq_true _ _ |>.mp hfound'
  obtain ⟨hmem, hname, -⟩ := Store.objectRecord_eq_some hrecord
  obtain ⟨hmem', hname', -⟩ := Store.objectRecord_eq_some hrecord'
  simp only [decide_eq_true_eq] at hid hid'
  obtain rfl := Table.eq_of_pk_eq hmem hmem' (hid.trans hid'.symm)
  have hsame : target.1 = target'.1 := by
    rw [hname] at hname'
    simp only [nameIn, ObjectName.mk.injEq] at hname'
    exact Prod.ext hname'.2.1 hname'.2.2
  exact hdisjoint target.1 (by simp [htarget]) (by simp [htarget', hsame])

/-- **A successful plan advances every stored row it touches by one, and no other.** -/
theorem objectVersion_of_mapM_applyEdit {plannedEdits : List PlannedEdit}
    {edits : List CommittedEdit} {record : ObjectRecord}
    (hnodup : (plannedEdits.filterMap fun e => e.target.map Prod.fst).Nodup)
    (h : plannedEdits.mapM (applyEdit env ctx ontology actionRunId) s = .ok (edits, s'))
    (hrecord : record ∈ s.objects.rows) :
    ∃ record' ∈ s'.objects.rows, record'.id = record.id ∧ record'.name = record.name ∧
      (record'.objectVersion : ℕ) = record.objectVersion +
        (if plannedEdits.any (PlannedEdit.touches ctx s record.id) then 1 else 0) := by
  induction plannedEdits generalizing s edits record with
  | nil =>
    obtain ⟨-, rfl⟩ := Prod.mk.inj (mapM_nil_eq_ok_iff.mp h)
    exact ⟨record, hrecord, rfl, rfl, by simp⟩
  | cons planned rest ih =>
    obtain ⟨edit, s₁, edits', hedit, hrest, -⟩ := mapM_cons_eq_ok_iff.mp h
    have hstep := objectStep_of_applyEdit hedit
    have hdisjoint : ∀ other ∈ rest, ∀ target, target ∈ planned.target.map Prod.fst →
        target ∉ other.target.map Prod.fst := by
      intro other hother target htarget hmem
      rw [List.filterMap_cons, Option.mem_def.mp htarget, List.nodup_cons] at hnodup
      exact hnodup.1 (List.mem_filterMap.mpr ⟨other, hother, hmem⟩)
    have hnodup' : (rest.filterMap fun e => e.target.map Prod.fst).Nodup :=
      hnodup.sublist (List.sublist_cons_self planned rest |>.filterMap _)
    obtain ⟨record₁, hmem₁, hid₁, hname₁, hversion₁⟩ := objectVersion_of_objectStep hstep hrecord
    obtain ⟨record', hmem', hid', hname', hversion'⟩ := ih hnodup' hrest hmem₁
    refine ⟨record', hmem', hid'.trans hid₁, hname'.trans hname₁, ?_⟩
    -- the rest of the plan touches the row now exactly when it touched it before this edit
    have hrest_touches : rest.any (PlannedEdit.touches ctx s₁ record₁.id)
        = rest.any (PlannedEdit.touches ctx s record.id) := by
      rw [hid₁, Bool.eq_iff_iff, List.any_eq_true, List.any_eq_true]
      refine exists_congr fun other => and_congr_right fun hother => ?_
      rw [touches_of_objectStep hstep hrecord (hdisjoint other hother)]
    rw [hversion', hversion₁, hrest_touches, List.any_cons, add_assoc]
    congr 1
    cases htouched : planned.touches ctx s record.id with
    | false => simp
    | true =>
      have hnone : rest.any (PlannedEdit.touches ctx s record.id) = false := by
        rw [List.any_eq_false]
        intro other hother
        rw [not_touches_of_touches (hdisjoint other hother) htouched]
        exact Bool.false_ne_true
      simp [hnone]

/-- The objects a checked plan modifies or deletes are pairwise different. -/
theorem nodup_targets_plannedEdits (plan : ValidEditPlan) :
    (plan.plannedEdits.filterMap fun e => e.target.map Prod.fst).Nodup := by
  have hmodified : (plan.objectsToModify.map PlannedEdit.modifyObject).filterMap
      (fun e => e.target.map Prod.fst) = plan.modified := by
    rw [List.filterMap_map, EditPlan.modified, ← List.filterMap_eq_map]
    rfl
  have hdeleted : (plan.objectsToDelete.map PlannedEdit.deleteObject).filterMap
      (fun e => e.target.map Prod.fst) = plan.deleted := by
    rw [List.filterMap_map, EditPlan.deleted, ← List.filterMap_eq_map]
    rfl
  have hnone : ∀ {α : Type} (f : α → PlannedEdit) (l : List α), (∀ a, (f a).target = none) →
      (l.map f).filterMap (fun e => e.target.map Prod.fst) = [] := by
    intro α f l hf
    rw [List.filterMap_map, List.filterMap_eq_nil_iff]
    intro a _
    rw [Function.comp_apply, hf a, Option.map_none]
  simp only [EditPlan.plannedEdits, List.filterMap_append, hmodified, hdeleted]
  rw [hnone _ _ fun _ => rfl, hnone _ _ fun _ => rfl, hnone _ _ fun _ => rfl]
  simpa using plan.nodup_targets

/-! ### Any interleaving of calls -/

/-- One submission: everything it passes to the committer. -/
structure CommitCall where
  env : Environment
  ctx : RequestContext
  ontology : Ontology
  actionRunId : String
  plan : ValidEditPlan
  contract : Option LogPolicy
  transition : StatusTransition

namespace CommitCall

variable (call : CommitCall)

def run : Tx ActionEditPlanResult :=
  commitPlan call.env call.ctx call.ontology call.actionRunId call.plan.toEditPlan call.contract
    call.transition

/-- One planned edit of the call, by itself. -/
def apply : PlannedEdit → Tx CommittedEdit :=
  applyEdit call.env call.ctx call.ontology call.actionRunId

/-- Whether the plan of a call means the row with a given id. -/
def touches (s : Store) (recordId : String) : Bool :=
  call.plan.plannedEdits.any (PlannedEdit.touches call.ctx s recordId)

end CommitCall

/-- The store after a sequence of calls, each a transaction of its own. -/
def commitCalls : List CommitCall → Store → Store
  | [], s => s
  | call :: calls, s => commitCalls calls (call.run.attempt s).2

/-- How many calls of a sequence succeeded and were meant for a given row. -/
def touchCount (recordId : String) : List CommitCall → Store → ℕ
  | [], _ => 0
  | call :: calls, s =>
    (match call.run s with
      | .ok _ => if call.touches s recordId then 1 else 0
      | .error _ => 0) + touchCount recordId calls (call.run.attempt s).2

/-- At its own write, after the edits before it, an edit found its object at the version its plan
recorded and left it one version further; or it was to create the object and found none. -/
def AtPlannedVersion (call : CommitCall) (s : Store) (before : List PlannedEdit)
    (edit : PlannedEdit) (target : String × String) (version : ℕ) : Prop :=
  ∃ edits t committed t', before.mapM call.apply s = .ok (edits, t) ∧
    call.apply edit t = .ok (committed, t') ∧
    ((∃ record, t.objectRecord (nameIn call.ctx target) = some record ∧
        (record.objectVersion : ℕ) = version ∧
        ∃ record' ∈ t'.objects.rows, record'.id = record.id ∧
          (record'.objectVersion : ℕ) = version + 1) ∨
      (edit.shouldCreateIfAbsent = true ∧ t.objectRecord (nameIn call.ctx target) = none ∧
        ∃ record' ∈ t'.objects.rows, record' ∉ t.objects.rows))

/-- What the optimistic protocol promises of a call that finds the store in state `s` and leaves
it in state `s'`. -/
structure CallIsSound (call : CommitCall) (s s' : Store) : Prop where
  /-- A failed call leaves objects, links, versions, edits and everything else as they were. -/
  failed : ∀ error, call.run s = .error error → s' = s
  /-- A successful call wrote each object at the version its plan recorded. -/
  atPlannedVersion : ∀ result t, call.run s = .ok (result, t) → ∀ before edit after target version,
    call.plan.plannedEdits = before ++ edit :: after → edit.target = some (target, version) →
      AtPlannedVersion call s before edit target version
  /-- A successful call advances every object it touches by exactly one version. -/
  advances : ∀ result t, call.run s = .ok (result, t) → s' = t ∧ ∀ record ∈ s.objects.rows,
    ∃ record' ∈ s'.objects.rows, record'.id = record.id ∧
      (record'.objectVersion : ℕ)
        = record.objectVersion + (if call.touches s record.id then 1 else 0)

/-- Every call of an interleaving is sound, and across the whole interleaving the version of an
object advances by the number of successful calls that touched it. -/
structure NoLostUpdate (calls : List CommitCall) (s₀ : Store) : Prop where
  calls_sound : ∀ before call after, calls = before ++ call :: after →
    CallIsSound call (commitCalls before s₀) (commitCalls (before ++ [call]) s₀)
  versions : ∀ record ∈ s₀.objects.rows, ∃ record' ∈ (commitCalls calls s₀).objects.rows,
    record'.id = record.id ∧
      (record'.objectVersion : ℕ) = record.objectVersion + touchCount record.id calls s₀

theorem commitCalls_append (calls calls' : List CommitCall) (s : Store) :
    commitCalls (calls ++ calls') s = commitCalls calls' (commitCalls calls s) := by
  induction calls generalizing s with
  | nil => rfl
  | cons call calls ih => exact ih _

/-- The version of a stored row after one successful call. -/
theorem CommitCall.objectVersion_of_run (call : CommitCall) {result : ActionEditPlanResult}
    {record : ObjectRecord} (h : call.run s = .ok (result, s'))
    (hrecord : record ∈ s.objects.rows) :
    ∃ record' ∈ s'.objects.rows, record'.id = record.id ∧
      (record'.objectVersion : ℕ)
        = record.objectVersion + (if call.touches s record.id then 1 else 0) := by
  obtain ⟨edits, t, hedits, hsame⟩ := commitPlan_eq_ok h
  obtain ⟨record', hmem, hid, -, hversion⟩ :=
    objectVersion_of_mapM_applyEdit (nodup_targets_plannedEdits call.plan) hedits hrecord
  exact ⟨record', hsame.objects ▸ hmem, hid, hversion⟩

theorem CommitCall.atPlannedVersion_of_run (call : CommitCall) {result : ActionEditPlanResult}
    (h : call.run s = .ok (result, s')) {before after : List PlannedEdit} {edit : PlannedEdit}
    {target : String × String} {version : ℕ}
    (hsplit : call.plan.plannedEdits = before ++ edit :: after)
    (htarget : edit.target = some (target, version)) :
    AtPlannedVersion call s before edit target version := by
  obtain ⟨edits, t, hedits, -⟩ := commitPlan_eq_ok h
  rw [hsplit, mapM_append_eq_ok_iff] at hedits
  obtain ⟨edits₁, s₁, edits₂, hbefore, hrest, -⟩ := hedits
  obtain ⟨committed, s₂, edits₃, hedit, -, -⟩ := mapM_cons_eq_ok_iff.mp hrest
  refine ⟨edits₁, s₁, committed, s₂, hbefore, hedit, ?_⟩
  cases objectStep_of_applyEdit hedit with
  | untouched hnone _ => simp [hnone] at htarget
  | created row _ hmissing hinsert =>
    obtain ⟨hcreate, hnone⟩ := hmissing target version htarget
    refine .inr ⟨hcreate, hnone, row, ?_, ?_⟩
    · simp [Table.rows_of_insert?_eq_some hinsert]
    · have hfresh := (Table.insert?_isSome_iff.mp (by rw [hinsert]; rfl)).1
      exact fun hmem => hfresh (List.mem_map_of_mem hmem)
  | advanced target' version' record update n htarget' hfound hversion hobjects hnext =>
    obtain ⟨rfl, rfl⟩ := Prod.mk.inj (Option.some.inj (htarget'.symm.trans htarget))
    refine .inl ⟨record, hfound, hversion, (update n).apply record, ?_, (update n).pk_apply record,
      ?_⟩
    · rw [hobjects, Table.rows_updateRow]
      exact List.mem_map.mpr ⟨record, (Store.objectRecord_eq_some hfound).1, if_pos rfl⟩
    · rw [hnext, PNat.add_coe, hversion, PNat.one_coe]

/-- **No update is lost.** In every interleaving of any number of commits over one store, from any
starting state: a call that succeeds found each object it modifies or deletes at the version
recorded in its plan and advanced it by exactly one, and a call that fails changed nothing. -/
theorem noLostUpdate (calls : List CommitCall) (s₀ : Store) : NoLostUpdate calls s₀ where
  calls_sound before call after _ := by
    rw [commitCalls_append]
    change CallIsSound call _ (call.run.attempt (commitCalls before s₀)).2
    refine ⟨fun error herror => ?_, ?_, fun result t hok => ?_⟩
    · rw [attempt_of_error herror]
    · intro result t hok before edit after target version hsplit htarget
      exact call.atPlannedVersion_of_run hok hsplit htarget
    · rw [attempt_of_ok hok]
      exact ⟨rfl, fun record hrecord => call.objectVersion_of_run hok hrecord⟩
  versions record hrecord := by
    induction calls generalizing s₀ record with
    | nil => exact ⟨record, hrecord, rfl, rfl⟩
    | cons call calls ih =>
      rw [commitCalls, touchCount]
      cases hrun : call.run s₀ with
      | error error =>
        rw [attempt_of_error hrun]
        obtain ⟨record', hmem', hid', hversion'⟩ := ih s₀ record hrecord
        exact ⟨record', hmem', hid', by rw [hversion', Nat.zero_add]⟩
      | ok result =>
        rw [attempt_of_ok hrun]
        obtain ⟨record₁, hmem₁, hid₁, hversion₁⟩ := call.objectVersion_of_run hrun hrecord
        obtain ⟨record', hmem', hid', hversion'⟩ := ih _ record₁ hmem₁
        refine ⟨record', hmem', hid'.trans hid₁, ?_⟩
        rw [hversion', hversion₁, hid₁, Nat.add_assoc]

end FoundryLite.Actions
