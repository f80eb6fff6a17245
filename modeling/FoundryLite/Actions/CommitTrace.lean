import FoundryLite.Actions.VersionControl
import FoundryLite.Library.WriteLog

/-!
# The trace of a commit

A successful commit, read as the list of changes it made: for every edit, what it did to the tables
and the row the edit log received. The revert works from the log, so its correctness is a statement
about this list.

The changes hardly interact. An object edit changes one row, found by its unique key; a link edit
changes under which index versions the link with its ends is visible. So the object edits of a
trace are a run of keyed writes, and its link edits another (`Trace.objects`, `Trace.links`).

## Main results

* `exists_trace`: a successful commit has a trace.
* `Trace.objects`, `Trace.links`: the two runs of keyed writes of a trace.
* `Trace.realises`: each edit found the object that its plan names as it was before the commit.
-/

namespace FoundryLite.Actions

open ObjectStore WriteLog

/-! ### Effects -/

/-- How an edit changed an object, with the record it found. -/
inductive Change where
  | create
  | modify (record : ObjectRecord) (patch : PropertyMap)
  | delete (record : ObjectRecord)

structure ObjectEffect where
  change : Change
  /-- The row the edit left. -/
  after : ObjectRecord

namespace ObjectEffect

variable (e : ObjectEffect)

def key : ObjectKey := e.after.identity

/-- The key under which a revert looks for the object. -/
def revertKey : ObjectKey :=
  ⟨e.after.tenantId, e.after.objectType, e.after.objectId, activeIndexName⟩

def before : Option ObjectRecord :=
  match e.change with
  | .create => none
  | .modify record _ => some record
  | .delete record => some record

def isDeletion : Bool :=
  match e.change with
  | .delete _ => true
  | .create | .modify _ _ => false

def payload : RevertPayload :=
  match e.change with
  | .create => createdObjectRevertPayload
  | .modify record patch => propertyRevertPayload record patch
  | .delete record => deletedObjectRevertPayload record

/-- The row the edit left is what the edit makes of the record it found. -/
def IsSound (ontology : Ontology) : Prop :=
  match e.change with
  | .create => e.after.indexVersion = activeIndexName ∧ e.after.isActive = true ∧
      e.after.deleted = false ∧ e.after.objectVersion = 1
  | .modify record patch => record.isActive = true ∧ ∃ n time, e.after =
      { record with
        editProperties := record.editProperties.update patch
        properties := mergeProperties (ontology.properties record.objectType)
          record.baseProperties (record.editProperties.update patch)
        objectVersion := record.objectVersion + 1
        objectChangeSequence := n
        updatedAt := time }
  | .delete record => record.isActive = true ∧ ∃ reason n time, e.after =
      { record with
        deleted := true
        isActive := false
        deletionReason := reason
        objectVersion := record.objectVersion + 1
        objectChangeSequence := n
        updatedAt := time }

/-- The row an object edit found under its key, and the row it left there. -/
def Writes (ontology : Ontology) (e : ObjectEffect) (before after : Option ObjectRecord) : Prop :=
  e.IsSound ontology ∧ before = e.before ∧ after = some e.after

end ObjectEffect

/-- How an edit changed a link. -/
structure LinkEffect where
  ends : LinkEnds
  /-- Whether the link was created, rather than deleted. -/
  isCreation : Bool

namespace LinkEffect

variable (e : LinkEffect)

/-- A creation makes the link visible under `"active"`; a deletion found it visible under some
index version and hid it under all of them. -/
def Writes (before after : String → Bool) : Prop :=
  if e.isCreation then after = Function.update before activeIndexName true
  else (∃ version, before version = true) ∧ after = fun _ => false

def inverse : LinkEffect := ⟨e.ends, !e.isCreation⟩

def payload : RevertPayload :=
  if e.isCreation then .createLink e.ends.linkType e.ends.fromObjectId e.ends.toObjectId true
  else .deleteLink e.ends.linkType e.ends.fromObjectId e.ends.toObjectId false

end LinkEffect

inductive Effect where
  | object (e : ObjectEffect)
  | link (e : LinkEffect)

/-- Whether the link with the given ends is visible, for each index version. -/
def visibleVersions (s : Store) (ends : LinkEnds) (version : String) : Bool :=
  s.isLinkVisible (ends, version)

theorem visibleVersions_congr {s s' : Store} (h : s'.links = s.links) :
    visibleVersions s' = visibleVersions s := by
  funext ends version
  exact Store.isLinkVisible_congr h (ends, version)

/-- What an effect did to the tables. -/
def Effect.Holds (ontology : Ontology) (s s' : Store) : Effect → Prop
  | .object e =>
    ActsAt (ObjectEffect.Writes ontology) ObjectEffect.key e s.objects.get? s'.objects.get? ∧
      s'.links = s.links
  | .link e => s'.objects = s.objects ∧ s.KeepsLinks s' ∧
      ActsAt LinkEffect.Writes LinkEffect.ends e (visibleVersions s) (visibleVersions s')

/-- What the log row of an effect says of it. -/
def Effect.IsLogged (ctx : RequestContext) (row : ObjectEdit) : Effect → Prop
  | .object e => e.after.tenantId = ctx.tenantId ∧ row.objectType = e.after.objectType ∧
      row.objectId = e.after.objectId ∧ row.revertPayload = some e.payload
  | .link e => e.ends.tenantId = ctx.tenantId ∧ row.revertPayload = some e.payload

/-- Of the context, the log row repeats the tenant only. -/
theorem Effect.IsLogged.of_tenantId_eq {ctx ctx' : RequestContext} {row : ObjectEdit}
    {effect : Effect} (h : effect.IsLogged ctx row) (htenant : ctx.tenantId = ctx'.tenantId) :
    effect.IsLogged ctx' row := by
  cases effect with
  | object e => exact ⟨h.1.trans htenant, h.2⟩
  | link e => exact ⟨h.1.trans htenant, h.2⟩

/-- The effect is the one its planned edit asks for in a given state. -/
def Effect.Realises (ctx : RequestContext) (ontology : Ontology) (s : Store) :
    PlannedEdit → Effect → Prop
  | .createObject _, .object ⟨.create, _⟩ => True
  | .modifyObject m, .object ⟨.modify record patch, _⟩ =>
    s.objectRecord (nameIn ctx (m.objectType, m.objectId)) = some record ∧ patch = m.patch
  | .modifyObject m, .object ⟨.create, _⟩ =>
    s.objectRecord (nameIn ctx (m.objectType, m.objectId)) = none
  | .deleteObject d, .object ⟨.delete record, _⟩ =>
    s.objectRecord (nameIn ctx (d.objectType, d.objectId)) = some record
  | .createLink l, .link e => e.isCreation = true ∧
    ∃ row, ontology.linkType l.linkType = some row ∧ e.ends = linkEnds ctx row l
  | .deleteLink l, .link e => e.isCreation = false ∧
    ∃ row, ontology.linkType l.linkType = some row ∧ e.ends = linkEnds ctx row l
  | _, _ => False

/-! ### Steps and traces -/

/-- A planned edit with its effect and the row it added to the edit log. -/
structure Step where
  planned : PlannedEdit
  effect : Effect
  row : ObjectEdit

structure Step.Holds (ctx : RequestContext) (ontology : Ontology) (actionRunId : String)
    (step : Step) (s s' : Store) : Prop where
  objects : ObjectStep ctx step.planned s s'
  realises : step.effect.Realises ctx ontology s step.planned
  effect : step.effect.Holds ontology s s'
  logged : step.effect.IsLogged ctx step.row
  edits : s'.edits = s.edits ++ [step.row]
  run : step.row.tenantId = ctx.tenantId ∧ step.row.actionRunId = actionRunId

/-- A run of steps from one state to another. -/
def Trace (ctx : RequestContext) (ontology : Ontology) (actionRunId : String) :
    Store → List Step → Store → Prop
  | s, [], t => SameRows s t
  | s, step :: steps, t => ∃ s₁, step.Holds ctx ontology actionRunId s s₁ ∧
      Trace ctx ontology actionRunId s₁ steps t

variable {env : Environment} {ctx : RequestContext} {ontology : Ontology} {actionRunId : String}
  {s s' t : Store}

/-- An update of a stored row, as an object effect. -/
theorem ObjectEffect.holds_of_updateRow {e : ObjectEffect} {record : ObjectRecord}
    {update : ObjectUpdate} {n : ℕ} (hsound : e.IsSound ontology)
    (hbefore : e.before = some record) (hafter : e.after = (update n).apply record)
    (hrecord : record ∈ s.objects.rows)
    (hobjects : s'.objects = s.objects.updateRow record.id (update n))
    (hlinks : s'.links = s.links) : (Effect.object e).Holds ontology s s' := by
  have hkey : e.key = record.identity := by
    rw [key, hafter, (update n).uq_apply]
  refine ⟨⟨some e.after, ⟨hsound, ?_, rfl⟩, funext fun k => ?_⟩, hlinks⟩
  · rw [hkey, hbefore, Table.get?_uq_of_mem hrecord]
  · rw [hobjects, Table.get?_updateRow hrecord, Function.update_apply, hkey, hafter]

/-- An insertion, as an object effect. -/
theorem ObjectEffect.holds_of_insert? {e : ObjectEffect} (hsound : e.IsSound ontology)
    (hbefore : e.before = none) (hinsert : s.objects.insert? e.after = some s'.objects)
    (hlinks : s'.links = s.links) : (Effect.object e).Holds ontology s s' := by
  refine ⟨⟨some e.after, ⟨hsound, ?_, rfl⟩, funext fun k => ?_⟩, hlinks⟩
  · rw [hbefore]
    exact Table.get?_of_insert?_eq_some hinsert
  · rw [Table.get?_insert? hinsert, Function.update_apply]
    rfl

theorem LinkEffect.actsAt_of_creation {ends : LinkEnds} (hvisible : ∀ key, s'.isLinkVisible key
      = if key = (ends, activeIndexName) then true else s.isLinkVisible key) :
    ActsAt Writes LinkEffect.ends ⟨ends, true⟩ (visibleVersions s) (visibleVersions s') := by
  refine ⟨Function.update (visibleVersions s ends) activeIndexName true, rfl, ?_⟩
  funext ends' version
  rw [visibleVersions, hvisible]
  by_cases hends : ends' = ends
  · subst hends
    rw [Function.update_self, Function.update_apply]
    simp [visibleVersions]
  · rw [Function.update_of_ne hends, if_neg fun h => hends (congrArg Prod.fst h), visibleVersions]

theorem LinkEffect.actsAt_of_deletion {ends : LinkEnds}
    (hfound : ∃ version, s.isLinkVisible (ends, version) = true)
    (hvisible : ∀ key, s'.isLinkVisible key
      = if key.1 = ends then false else s.isLinkVisible key) :
    ActsAt Writes LinkEffect.ends ⟨ends, false⟩ (visibleVersions s) (visibleVersions s') := by
  refine ⟨fun _ => false, ⟨hfound, rfl⟩, ?_⟩
  funext ends' version
  rw [visibleVersions, hvisible]
  by_cases hends : ends' = ends
  · subst hends
    rw [Function.update_self, if_pos rfl]
  · rw [Function.update_of_ne hends, if_neg hends, visibleVersions]

/-- A creation as a step. -/
theorem exists_step_of_createOne {planned : PlannedEdit} {objectType objectId key : String}
    {properties : PropertyMap} {edit : CommittedEdit}
    (h : createOne env ctx ontology actionRunId objectType objectId properties key s
      = .ok (edit, s')) (hobjects : ObjectStep ctx planned s s')
    (hrealises : ∀ row, Effect.Realises ctx ontology s planned (.object ⟨.create, row⟩)) :
    ∃ step : Step, step.planned = planned ∧ step.Holds ctx ontology actionRunId s s' := by
  obtain ⟨typeId, row, -, hidentity, hactive, hdeleted, hversion, hinsert, hlinks, logRow, hedits,
    htenant, hrun, htype, hid, hpayload⟩ := createOne_eq_ok h
  have hkeys := hidentity
  simp only [ObjectRecord.identity, ObjectKey.mk.injEq] at hkeys
  obtain ⟨hrowTenant, hrowType, hrowId, hrowIndex⟩ := hkeys
  refine ⟨⟨planned, .object ⟨.create, row⟩, logRow⟩, rfl, hobjects, hrealises row, ?_, ?_, hedits,
    htenant, hrun⟩
  · exact ObjectEffect.holds_of_insert? ⟨hrowIndex, hactive, hdeleted, hversion⟩ rfl hinsert hlinks
  · exact ⟨hrowTenant, htype.trans hrowType.symm, hid.trans hrowId.symm, hpayload⟩

theorem exists_step_of_modifyOne {modify : ObjectModify} {edit : CommittedEdit}
    (h : modifyOne env ctx ontology actionRunId modify s = .ok (edit, s')) :
    ∃ step : Step, step.planned = .modifyObject modify ∧
      step.Holds ctx ontology actionRunId s s' := by
  have hobjects := objectStep_of_modifyOne h
  simp only [modifyOne, Transaction.bind_eq_ok_iff, Transaction.get_eq_ok_iff,
    Prod.mk.injEq] at h
  obtain ⟨store, s₁, ⟨rfl, rfl⟩, h⟩ := h
  cases hfound : s.objectRecord ⟨ctx.tenantId, modify.objectType, modify.objectId⟩ with
  | some record =>
    rw [hfound] at h
    obtain ⟨hrecord, hname, hactive⟩ := Store.objectRecord_eq_some hfound
    simp only [ObjectRecord.name, ObjectName.mk.injEq] at hname
    obtain ⟨write, n, -, hedit, hproperties, hnext, hupdate, hlinks, logRow, hedits, htenant, hrun,
      htype, hid, hpayload⟩ := modifyExisting_eq_ok hrecord h
    refine ⟨⟨_, .object ⟨.modify record modify.patch, (targetUpdate write n).apply record⟩, logRow⟩,
      rfl, hobjects, ⟨hfound, rfl⟩, ?_, ?_, hedits, htenant, hrun⟩
    · refine ObjectEffect.holds_of_updateRow ⟨hactive, n, write.updatedAt, ?_⟩ rfl rfl hrecord hupdate
        hlinks
      simp only [targetUpdate, hedit, hproperties, hnext]
    · exact ⟨hname.1, htype, hid.trans hname.2.2.symm, hpayload⟩
  | none =>
    rw [hfound] at h
    split_ifs at h
    · exact exists_step_of_createOne h hobjects fun row => hfound
    · simp at h

theorem exists_step_of_deleteOne {delete : ObjectDelete} {edit : CommittedEdit}
    (h : deleteOne env ctx actionRunId delete s = .ok (edit, s'))
    (hobjects : ObjectStep ctx (.deleteObject delete) s s') :
    ∃ step : Step, step.planned = .deleteObject delete ∧
      step.Holds ctx ontology actionRunId s s' := by
  obtain ⟨record, write, n, hfound, -, hnext, hupdate, hlinks, logRow, hedits, htenant, hrun,
    htype, hid, hpayload⟩ := deleteOne_eq_ok h
  obtain ⟨hrecord, hname, hactive⟩ := Store.objectRecord_eq_some hfound
  simp only [ObjectRecord.name, ObjectName.mk.injEq] at hname
  refine ⟨⟨_, .object ⟨.delete record, (softDeletion write n).apply record⟩, logRow⟩, rfl, hobjects,
    hfound, ?_, ?_, hedits, htenant, hrun⟩
  · refine ObjectEffect.holds_of_updateRow ⟨hactive, some write.deletionReason, n, write.updatedAt, ?_⟩
      rfl rfl hrecord hupdate hlinks
    simp only [softDeletion, hnext]
  · exact ⟨hname.1, htype, hid.trans hname.2.2.symm, hpayload⟩

/-- **Every planned edit that succeeded is a step.** -/
theorem exists_step_of_applyEdit {planned : PlannedEdit} {edit : CommittedEdit}
    (h : applyEdit env ctx ontology actionRunId planned s = .ok (edit, s')) :
    ∃ step : Step, step.planned = planned ∧ step.Holds ctx ontology actionRunId s s' := by
  have hobjects := objectStep_of_applyEdit h
  cases planned with
  | createObject create => exact exists_step_of_createOne h hobjects fun row => trivial
  | modifyObject modify => exact exists_step_of_modifyOne h
  | deleteObject delete => exact exists_step_of_deleteOne h hobjects
  | createLink link =>
    obtain ⟨row, htype, hsame, hkeeps, hvisible, logRow, hedits, htenant, hrun, -, -, hpayload⟩ :=
      createLinkOne_eq_ok h
    exact ⟨⟨_, .link ⟨linkEnds ctx row link, true⟩, logRow⟩, rfl, hobjects, ⟨rfl, row, htype, rfl⟩,
      ⟨hsame, hkeeps, LinkEffect.actsAt_of_creation hvisible⟩, ⟨rfl, hpayload⟩, hedits, htenant, hrun⟩
  | deleteLink link =>
    obtain ⟨row, htype, hsame, hkeeps, hfound, hvisible, logRow, hedits, htenant, hrun, -, -,
      hpayload⟩ := deleteLinkOne_eq_ok h
    exact ⟨⟨_, .link ⟨linkEnds ctx row link, false⟩, logRow⟩, rfl, hobjects, ⟨rfl, row, htype, rfl⟩,
      ⟨hsame, hkeeps, LinkEffect.actsAt_of_deletion hfound hvisible⟩, ⟨rfl, hpayload⟩, hedits, htenant,
      hrun⟩

/-- **A successful commit has a trace**, with one step for each planned edit. -/
theorem exists_trace {plannedEdits : List PlannedEdit} {edits : List CommittedEdit}
    (h : plannedEdits.mapM (applyEdit env ctx ontology actionRunId) s = .ok (edits, t))
    (hsame : SameRows t s') :
    ∃ steps, steps.map Step.planned = plannedEdits ∧ Trace ctx ontology actionRunId s steps s' := by
  induction plannedEdits generalizing s edits with
  | nil =>
    obtain ⟨-, rfl⟩ := Prod.mk.inj (Transaction.mapM_nil_eq_ok_iff.mp h)
    exact ⟨[], rfl, hsame⟩
  | cons planned rest ih =>
    obtain ⟨edit, s₁, edits', hedit, hrest, -⟩ := Transaction.mapM_cons_eq_ok_iff.mp h
    obtain ⟨step, rfl, hstep⟩ : ∃ step : Step, step.planned = planned ∧
        step.Holds ctx ontology actionRunId s s₁ := exists_step_of_applyEdit hedit
    obtain ⟨steps, rfl, htrace⟩ := ih hrest
    exact ⟨step :: steps, rfl, s₁, hstep, htrace⟩

/-! ### What a trace says of its two ends -/

def Step.object? (step : Step) : Option ObjectEffect :=
  match step.effect with
  | .object e => some e
  | .link _ => none

def Step.link? (step : Step) : Option LinkEffect :=
  match step.effect with
  | .object _ => none
  | .link e => some e

theorem Step.object?_eq_some_iff {step : Step} {e : ObjectEffect} :
    step.object? = some e ↔ step.effect = .object e := by
  rw [Step.object?]
  cases step.effect <;> simp

theorem Step.link?_eq_some_iff {step : Step} {e : LinkEffect} :
    step.link? = some e ↔ step.effect = .link e := by
  rw [Step.link?]
  cases step.effect <;> simp

/-- An object that is found by name is still found after an edit meant for another one. -/
theorem objectRecord_of_objectStep {edit : PlannedEdit} {target : String × String}
    {record : ObjectRecord} (hstep : ObjectStep ctx edit s s')
    (hne : target ∉ edit.target.map Prod.fst)
    (hfound : s.objectRecord (nameIn ctx target) = some record) :
    s'.objectRecord (nameIn ctx target) = some record := by
  cases hstep with
  | untouched _ hobjects => rwa [Store.objectRecord_congr (Store.about_congr hobjects _)]
  | created row _ _ hinsert =>
    rw [Store.objectRecord, Table.find?_insert? hinsert, ← Store.objectRecord, hfound,
      Option.some_or]
  | advanced target' version found update n htarget hfound' _ hobjects _ =>
    rwa [objectRecord_of_advanced hfound' hobjects]
    rintro rfl
    exact hne (by simp [htarget])

namespace Trace

variable {steps : List Step} {step : Step}

/-- The object edits of a trace are a run of keyed writes. -/
theorem objects (h : Trace ctx ontology actionRunId s steps t) :
    Runs (ObjectEffect.Writes ontology) ObjectEffect.key s.objects.get?
      (steps.filterMap Step.object?) t.objects.get? := by
  induction steps generalizing s with
  | nil => exact congrArg Table.get? (SameRows.objects h)
  | cons step steps ih =>
    obtain ⟨s₁, hstep, hrest⟩ := h
    have heffect := hstep.effect
    cases hcase : step.effect with
    | object e =>
      rw [hcase] at heffect
      rw [List.filterMap_cons_some (b := e) (by rw [Step.object?, hcase])]
      exact ⟨_, heffect.1, ih hrest⟩
    | link e =>
      rw [hcase] at heffect
      rw [List.filterMap_cons_none (by rw [Step.object?, hcase]), ← heffect.1]
      exact ih hrest

/-- The link edits of a trace are a run of keyed writes. -/
theorem links (h : Trace ctx ontology actionRunId s steps t) :
    Runs LinkEffect.Writes LinkEffect.ends (visibleVersions s)
      (steps.filterMap Step.link?) (visibleVersions t) := by
  induction steps generalizing s with
  | nil => exact visibleVersions_congr (SameRows.links h)
  | cons step steps ih =>
    obtain ⟨s₁, hstep, hrest⟩ := h
    have heffect := hstep.effect
    cases hcase : step.effect with
    | object e =>
      rw [hcase] at heffect
      rw [List.filterMap_cons_none (by rw [Step.link?, hcase]),
        ← visibleVersions_congr heffect.2]
      exact ih hrest
    | link e =>
      rw [hcase] at heffect
      rw [List.filterMap_cons_some (b := e) (by rw [Step.link?, hcase])]
      exact ⟨_, heffect.2.2, ih hrest⟩

theorem keepsLinks (h : Trace ctx ontology actionRunId s steps t) : s.KeepsLinks t := by
  induction steps generalizing s with
  | nil => exact Store.KeepsLinks.of_links_eq (SameRows.links h)
  | cons step steps ih =>
    obtain ⟨s₁, hstep, hrest⟩ := h
    refine Store.KeepsLinks.trans ?_ (ih hrest)
    have heffect := hstep.effect
    cases hcase : step.effect with
    | object e =>
      rw [hcase] at heffect
      exact Store.KeepsLinks.of_links_eq heffect.2
    | link e =>
      rw [hcase] at heffect
      exact heffect.2.1

/-- The edit log received the rows of the steps, in order. -/
theorem edits (h : Trace ctx ontology actionRunId s steps t) :
    t.edits = s.edits ++ steps.map Step.row := by
  induction steps generalizing s with
  | nil => rw [List.map_nil, List.append_nil, SameRows.edits h]
  | cons step steps ih =>
    obtain ⟨s₁, hstep, hrest⟩ := h
    rw [ih hrest, hstep.edits, List.append_assoc, List.map_cons, List.singleton_append]

/-- Each row belongs to the run and carries the evidence of its step. -/
theorem logged (h : Trace ctx ontology actionRunId s steps t) (hmem : step ∈ steps) :
    step.effect.IsLogged ctx step.row ∧
      step.row.tenantId = ctx.tenantId ∧ step.row.actionRunId = actionRunId := by
  induction steps generalizing s with
  | nil => simp at hmem
  | cons first steps ih =>
    obtain ⟨s₁, hstep, hrest⟩ := h
    rcases List.mem_cons.mp hmem with rfl | hmem
    · exact ⟨hstep.logged, hstep.run⟩
    · exact ih hrest hmem

theorem isSound (h : Trace ctx ontology actionRunId s steps t) {e : ObjectEffect}
    (hmem : step ∈ steps) (hcase : step.effect = .object e) : e.IsSound ontology := by
  have he : e ∈ steps.filterMap Step.object? :=
    List.mem_filterMap.mpr ⟨step, hmem, Step.object?_eq_some_iff.mpr hcase⟩
  obtain ⟨_, _, -, hwrites⟩ := h.objects.exists_of_mem (P := fun _ => True) trivial
    (fun _ _ _ _ _ _ _ => trivial) he rfl
  exact hwrites.1

/-- **Each edit did what its plan asks for, in a state where the object it is meant for is found as
it was before the commit.** -/
theorem realises (h : Trace ctx ontology actionRunId s steps t)
    (hnodup : ((steps.map Step.planned).filterMap fun e => e.target.map Prod.fst).Nodup)
    (hmem : step ∈ steps) :
    ∃ u, step.effect.Realises ctx ontology u step.planned ∧
      ∀ target ∈ step.planned.target.map Prod.fst, ∀ record,
        s.objectRecord (nameIn ctx target) = some record →
          u.objectRecord (nameIn ctx target) = some record := by
  induction steps generalizing s with
  | nil => simp at hmem
  | cons first steps ih =>
    obtain ⟨s₁, hstep, hrest⟩ := h
    rw [List.map_cons] at hnodup
    rcases List.mem_cons.mp hmem with rfl | hmem
    · exact ⟨s, hstep.realises, fun target _ record hfound => hfound⟩
    · have hnodup' := hnodup.sublist ((List.sublist_cons_self _ _).filterMap _)
      obtain ⟨u, hrealises, hkept⟩ := ih hrest hnodup' hmem
      refine ⟨u, hrealises, fun target htarget record hfound => hkept target htarget record ?_⟩
      refine objectRecord_of_objectStep hstep.objects (fun hfirst => ?_) hfound
      rw [List.filterMap_cons, Option.mem_def.mp hfirst, List.nodup_cons] at hnodup
      exact hnodup.1 (List.mem_filterMap.mpr ⟨_, List.mem_map_of_mem hmem, htarget⟩)

end Trace

end FoundryLite.Actions
