import FoundryLite.Actions.CommitTrace

/-!
# A commit and its run

The edits of a plan write objects, links and the edit log, and never a run (`keepsRuns_applyEdit`).
The commit itself moves the status of the one run it was called for, and of no other. What becomes of
that run is therefore decided by its row alone, whatever the plan and whatever the store.

## Main results

* `commitPlan_runsOf`: a commit moved its run from a status of the transition to its target.
* `commitPlan_editsOf`: it logged an edit of the run for each edit of the plan.
-/

namespace FoundryLite.Actions

open ObjectStore Transaction

/-! ### Edits leave the runs alone -/

section Frame

abbrev KeepsRuns {α : Type} (x : Tx α) : Prop := Keeps Store.actionRuns x

theorem keepsRuns_tick : KeepsRuns tick := by
  refine Keeps.get_bind fun s n s' h => ?_
  obtain ⟨u, s₁, hset, hpure⟩ := bind_eq_ok_iff.mp h
  obtain ⟨-, rfl⟩ := Prod.mk.inj (set_eq_ok_iff.mp hset)
  obtain ⟨-, rfl⟩ := Prod.mk.inj (pure_eq_ok_iff.mp hpure)
  rfl

theorem keepsRuns_demand {holds : Bool} {error : FoundryLiteError} :
    KeepsRuns (demand holds error) := .ite (.pure _) (.throw _)

theorem keepsRuns_demandSome {α : Type} {value? : Option α} {error : FoundryLiteError} :
    KeepsRuns (demandSome value? error) := by
  cases value? with
  | none => exact .throw error
  | some value => exact .pure value

/-- The runs, and how often the environment was read: no write of a row changes either. -/
def restOf (s : Store) : List ActionRun × ℕ := (s.actionRuns, s.ticks)

abbrev KeepsRest {α : Type} (x : Tx α) : Prop := Keeps restOf x

theorem keepsRest_nextObjectChangeSequence {tenantId : String} :
    KeepsRest (nextObjectChangeSequence tenantId) := by
  refine Keeps.get_bind fun s n s' h => ?_
  obtain ⟨u, s₁, hset, hpure⟩ := bind_eq_ok_iff.mp h
  obtain ⟨-, rfl⟩ := Prod.mk.inj (set_eq_ok_iff.mp hset)
  obtain ⟨-, rfl⟩ := Prod.mk.inj (pure_eq_ok_iff.mp hpure)
  rfl

theorem keepsRest_snapshotObjectRecordVersion {tenantId recordId : String} :
    KeepsRest (snapshotObjectRecordVersion tenantId recordId) := by
  refine Keeps.get_bind fun s u s' h => ?_
  cases hfind : s.objects.rows.find? fun row => row.tenantId = tenantId ∧ row.id = recordId with
  | none =>
    rw [hfind] at h
    exact (throw_eq_ok_iff.mp h).elim
  | some row =>
    rw [hfind] at h
    obtain ⟨-, rfl⟩ := Prod.mk.inj (set_eq_ok_iff.mp h)
    rfl

theorem keepsRest_conditionalObjectUpdate {tenantId recordId : String}
    {guard : ObjectRecord → Bool} {update : ObjectUpdate} :
    KeepsRest (conditionalObjectUpdate tenantId recordId guard update) := by
  refine keepsRest_nextObjectChangeSequence.bind fun sequence => Keeps.get_bind fun s hit s' h => ?_
  obtain ⟨u, s₁, hset, h⟩ := bind_eq_ok_iff.mp h
  obtain ⟨-, rfl⟩ := Prod.mk.inj (set_eq_ok_iff.mp hset)
  split_ifs at h with hcount
  · obtain ⟨-, rfl⟩ := Prod.mk.inj (pure_eq_ok_iff.mp h)
    rfl
  · have hkeeps := (keepsRest_snapshotObjectRecordVersion.bind fun _ => Keeps.pure true) _ _ _ h
    exact hkeeps

theorem keepsRest_createObjectRecordWrite {write : ObjectCreateWrite} :
    KeepsRest (createObjectRecordWrite write) := by
  refine keepsRest_nextObjectChangeSequence.bind fun sequence =>
    Keeps.get_bind fun s inserted s' h => ?_
  split_ifs at h with htaken
  · obtain ⟨-, rfl⟩ := Prod.mk.inj (pure_eq_ok_iff.mp h)
    rfl
  · cases hinsert : s.objects.insert? (objectCreateValues write sequence) with
    | none =>
      rw [hinsert] at h
      exact (throw_eq_ok_iff.mp h).elim
    | some objects =>
      rw [hinsert] at h
      obtain ⟨u, s₁, hset, h⟩ := bind_eq_ok_iff.mp h
      obtain ⟨-, rfl⟩ := Prod.mk.inj (set_eq_ok_iff.mp hset)
      have hkeeps := (keepsRest_snapshotObjectRecordVersion.bind fun _ => Keeps.pure true) _ _ _ h
      exact hkeeps

theorem keepsRest_createObjectLinkWrite {write : ObjectLinkWrite} :
    KeepsRest (createObjectLinkWrite write) := by
  refine Keeps.get_bind fun s u s' h => ?_
  cases hfound : s.links.get? (objectLinkValues write).identity with
  | some link =>
    rw [hfound] at h
    obtain ⟨-, rfl⟩ := Prod.mk.inj (set_eq_ok_iff.mp h)
    rfl
  | none =>
    rw [hfound] at h
    cases hinsert : s.links.insert? (objectLinkValues write) with
    | none =>
      rw [hinsert] at h
      exact (throw_eq_ok_iff.mp h).elim
    | some links =>
      rw [hinsert] at h
      obtain ⟨-, rfl⟩ := Prod.mk.inj (set_eq_ok_iff.mp h)
      rfl

theorem keepsRest_softDeleteObjectLinkWrite {write : ObjectLinkDeleteWrite} :
    KeepsRest (softDeleteObjectLinkWrite write) := by
  refine Keeps.get_bind fun s deleted s' h => ?_
  obtain ⟨u, s₁, hset, hpure⟩ := bind_eq_ok_iff.mp h
  obtain ⟨-, rfl⟩ := Prod.mk.inj (set_eq_ok_iff.mp hset)
  obtain ⟨-, rfl⟩ := Prod.mk.inj (pure_eq_ok_iff.mp hpure)
  rfl

theorem keepsRuns_conditionalObjectUpdate {tenantId recordId : String}
    {guard : ObjectRecord → Bool} {update : ObjectUpdate} :
    KeepsRuns (conditionalObjectUpdate tenantId recordId guard update) :=
  keepsRest_conditionalObjectUpdate.comp Prod.fst

theorem keepsRuns_createObjectRecordWrite {write : ObjectCreateWrite} :
    KeepsRuns (createObjectRecordWrite write) := keepsRest_createObjectRecordWrite.comp Prod.fst

theorem keepsRuns_createObjectLinkWrite {write : ObjectLinkWrite} :
    KeepsRuns (createObjectLinkWrite write) := keepsRest_createObjectLinkWrite.comp Prod.fst

theorem keepsRuns_softDeleteObjectLinkWrite {write : ObjectLinkDeleteWrite} :
    KeepsRuns (softDeleteObjectLinkWrite write) :=
  keepsRest_softDeleteObjectLinkWrite.comp Prod.fst

variable {env : Environment} {ctx : RequestContext} {ontology : Ontology} {actionRunId : String}

theorem keepsRuns_now : KeepsRuns (now env) := keepsRuns_tick.map

theorem keepsRuns_newId {kind : String} : KeepsRuns (newId env kind) := keepsRuns_tick.map

theorem keepsRuns_recordEdit {objectType : ObjectTypeId} {objectId operationKey : String}
    {editType : EditType} {patch previous : PropertyMap} {payload : Option RevertPayload} :
    KeepsRuns (recordEdit env ctx actionRunId objectType objectId editType patch previous
      operationKey payload) := by
  refine keepsRuns_newId.bind fun editId => keepsRuns_now.bind fun createdAt => ?_
  refine Keeps.bind (fun s u s' h => ?_) fun _ => .pure editId
  obtain ⟨-, rfl⟩ := Prod.mk.inj (modify_eq_ok_iff.mp h)
  rfl

theorem keepsRuns_createOne {objectType objectId operationKey : String} {properties : PropertyMap} :
    KeepsRuns (createOne env ctx ontology actionRunId objectType objectId properties
      operationKey) :=
  keepsRuns_demandSome.bind fun _ => keepsRuns_newId.bind fun _ => keepsRuns_now.bind fun _ =>
    keepsRuns_createObjectRecordWrite.bind fun _ => keepsRuns_demand.bind fun _ =>
      keepsRuns_recordEdit.bind fun _ => .pure _

theorem keepsRuns_modifyExisting {modify : ObjectModify} {record : ObjectRecord} :
    KeepsRuns (modifyExisting env ctx ontology actionRunId modify record) :=
  keepsRuns_now.bind fun _ => keepsRuns_conditionalObjectUpdate.bind fun _ =>
    keepsRuns_demand.bind fun _ => keepsRuns_recordEdit.bind fun _ => .pure _

theorem keepsRuns_modifyOne {modify : ObjectModify} :
    KeepsRuns (modifyOne env ctx ontology actionRunId modify) := by
  refine Keeps.get.bind fun store => ?_
  split
  · exact keepsRuns_modifyExisting
  · exact .ite keepsRuns_createOne (.throw _)

theorem keepsRuns_deleteOne {delete : ObjectDelete} :
    KeepsRuns (deleteOne env ctx actionRunId delete) :=
  Keeps.get.bind fun _ => keepsRuns_demandSome.bind fun _ => keepsRuns_now.bind fun _ =>
    keepsRuns_conditionalObjectUpdate.bind fun _ => keepsRuns_demand.bind fun _ =>
      keepsRuns_recordEdit.bind fun _ => .pure _

theorem keepsRuns_recordLinkEdit {link : PlannedLink} {row : LinkTypeRow}
    {operation : EditOperation} {revertPayload : RevertPayload} :
    KeepsRuns (recordLinkEdit env ctx actionRunId link row operation revertPayload) :=
  keepsRuns_recordEdit.bind fun _ => .pure _

theorem keepsRuns_createLinkOne {link : LinkCreate} :
    KeepsRuns (createLinkOne env ctx ontology actionRunId link) :=
  keepsRuns_demandSome.bind fun _ => keepsRuns_newId.bind fun _ => keepsRuns_now.bind fun _ =>
    keepsRuns_createObjectLinkWrite.bind fun _ => keepsRuns_recordLinkEdit

theorem keepsRuns_deleteLinkOne {link : LinkDelete} :
    KeepsRuns (deleteLinkOne env ctx ontology actionRunId link) :=
  keepsRuns_demandSome.bind fun _ => keepsRuns_now.bind fun _ =>
    keepsRuns_softDeleteObjectLinkWrite.bind fun _ => keepsRuns_demand.bind fun _ =>
      keepsRuns_recordLinkEdit

/-- **No planned edit writes a run.** -/
theorem keepsRuns_applyEdit {edit : PlannedEdit} :
    KeepsRuns (applyEdit env ctx ontology actionRunId edit) := by
  cases edit with
  | createObject create => exact keepsRuns_createOne
  | modifyObject modify => exact keepsRuns_modifyOne
  | deleteObject delete => exact keepsRuns_deleteOne
  | createLink link => exact keepsRuns_createLinkOne
  | deleteLink link => exact keepsRuns_deleteLinkOne

theorem keepsRuns_recordActionLog {policy : LogPolicy} :
    KeepsRuns (recordActionLog ctx actionRunId policy) := by
  refine Keeps.get_bind fun s u s' h => ?_
  obtain ⟨run, s₁, hrun, h⟩ := bind_eq_ok_iff.mp h
  have hkeeps := keepsRuns_demandSome s run s₁ hrun
  obtain ⟨-, rfl⟩ := Prod.mk.inj (demandSome_eq_ok_iff.mp hrun).choose_spec.2
  obtain ⟨-, rfl⟩ := Prod.mk.inj (set_eq_ok_iff.mp h)
  rfl

end Frame

/-! ### The row of a run -/

section Run

variable (ctx : RequestContext) (actionRunId : String)

/-- The rows of a run: there is one at most, under its primary key. -/
def runsOf (s : Store) : List ActionRun :=
  s.actionRuns.filter fun run => run.tenantId = ctx.tenantId && run.id = actionRunId

/-- The edits that were logged for a run. -/
def editsOf (s : Store) : List ObjectEdit :=
  s.edits.filter fun edit => edit.tenantId = ctx.tenantId && edit.actionRunId = actionRunId

variable {ctx actionRunId} {env : Environment} {ontology : Ontology} {run : ActionRun} {s s' : Store}

/-- Changing the rows under a key that meet a guard, where there is one row under the key. -/
theorem filter_map_ite_of_singleton {α : Type} {p q : α → Bool} {f : α → α} {a : α} {l : List α}
    (h : l.filter p = [a]) (hf : ∀ x, p (f x) = p x) :
    (l.map fun x => if p x && q x then f x else x).filter p = [if q a then f a else a] := by
  have hp : p a = true := List.of_mem_filter (h ▸ List.mem_singleton_self a)
  have hcomp : (p ∘ fun x => if p x && q x then f x else x) = p := by
    funext x
    simp only [Function.comp_apply]
    split_ifs
    · exact hf x
    · rfl
  rw [List.filter_map, hcomp, h, List.map_singleton, hp, Bool.true_and]

theorem countP_and_of_singleton {α : Type} {p q : α → Bool} {a : α} {l : List α}
    (h : l.filter p = [a]) : l.countP (fun x => p x && q x) = if q a then 1 else 0 := by
  have hswap : (fun x => p x && q x) = fun x => q x && p x := funext fun x => Bool.and_comm _ _
  rw [hswap, ← List.countP_filter, h, List.countP_singleton]

theorem updateActionRunTerminal_eq_ok {transition : StatusTransition} {completedAt : Option String}
    {updated : Bool}
    (h : updateActionRunTerminal ctx actionRunId transition completedAt s = .ok (updated, s'))
    (hrun : runsOf ctx actionRunId s = [run]) :
    (updated = true ↔ run.status ∈ transition.fromStatuses) ∧ s'.edits = s.edits ∧
      runsOf ctx actionRunId s' = [if run.status ∈ transition.fromStatuses then
        { run with status := transition.toStatus, completedAt } else run] := by
  obtain ⟨store, s₁, hget, h⟩ := bind_eq_ok_iff.mp h
  obtain ⟨rfl, rfl⟩ := Prod.mk.inj (get_eq_ok_iff.mp hget)
  obtain ⟨u, s₁, hset, hpure⟩ := bind_eq_ok_iff.mp h
  obtain ⟨-, rfl⟩ := Prod.mk.inj (set_eq_ok_iff.mp hset)
  obtain ⟨rfl, rfl⟩ := Prod.mk.inj (pure_eq_ok_iff.mp hpure)
  refine ⟨?_, rfl, ?_⟩
  · rw [countP_and_of_singleton (q := fun run => decide (run.status ∈ transition.fromStatuses)) hrun]
    by_cases hmem : run.status ∈ transition.fromStatuses <;> simp [hmem]
  · have hmap := filter_map_ite_of_singleton
      (q := fun run => decide (run.status ∈ transition.fromStatuses))
      (f := fun run => { run with status := transition.toStatus, completedAt }) hrun fun _ => rfl
    simp only [decide_eq_true_eq] at hmap
    exact hmap

/-- **A commit moves its run from a status of the transition to its target.** -/
theorem commitPlan_runsOf {plan : EditPlan} {contract : Option LogPolicy}
    {transition : StatusTransition} {result : ActionEditPlanResult}
    (h : commitPlan env ctx ontology actionRunId plan contract transition s = .ok (result, s'))
    (hrun : runsOf ctx actionRunId s = [run]) :
    run.status ∈ transition.fromStatuses ∧ ∃ completedAt, runsOf ctx actionRunId s' =
      [{ run with status := transition.toStatus, completedAt }] := by
  simp only [commitPlan, bind_eq_ok_iff, pure_eq_ok_iff] at h
  obtain ⟨creates, s₁, h₁, modifies, s₂, h₂, deletes, s₃, h₃, linkCreates, s₄, h₄, linkDeletes, s₅,
    h₅, u, s₆, hfinal, v, s₇, hlog, heq⟩ := h
  obtain ⟨-, rfl⟩ := Prod.mk.inj heq
  have hruns : s₅.actionRuns = s.actionRuns :=
    (Keeps.mapM (fun _ => keepsRuns_deleteLinkOne) _ _ _ h₅).trans <|
      (Keeps.mapM (fun _ => keepsRuns_createLinkOne) _ _ _ h₄).trans <|
        (Keeps.mapM (fun _ => keepsRuns_deleteOne) _ _ _ h₃).trans <|
          (Keeps.mapM (fun _ => keepsRuns_modifyOne) _ _ _ h₂).trans <|
            Keeps.mapM (fun _ => keepsRuns_applyEdit) _ _ _ h₁
  obtain ⟨completedAt, t, hnow, hfinal⟩ := bind_eq_ok_iff.mp hfinal
  obtain ⟨updated, t', hterminal, hdemand⟩ := bind_eq_ok_iff.mp hfinal
  obtain ⟨hupdated, heq⟩ := demand_eq_ok_iff.mp hdemand
  obtain ⟨-, rfl⟩ := Prod.mk.inj heq
  have hrun' : runsOf ctx actionRunId t = [run] := by
    rw [runsOf, keepsRuns_now _ _ _ hnow, hruns]
    exact hrun
  obtain ⟨hiff, -, hterminal⟩ := updateActionRunTerminal_eq_ok hterminal hrun'
  have hstatus := hiff.mp hupdated
  refine ⟨hstatus, some completedAt, ?_⟩
  have hkeeps : s₇.actionRuns = t'.actionRuns := by
    cases contract with
    | none =>
      obtain ⟨-, rfl⟩ := Prod.mk.inj (pure_eq_ok_iff.mp hlog)
      rfl
    | some policy => exact keepsRuns_recordActionLog _ _ _ hlog
  rw [runsOf, hkeeps]
  exact hterminal.trans (by rw [if_pos hstatus])

/-- **A commit logs an edit of its run for each edit of the plan**, and the plan's only. -/
theorem commitPlan_editsOf {plan : EditPlan} {contract : Option LogPolicy}
    {transition : StatusTransition} {result : ActionEditPlanResult}
    (h : commitPlan env ctx ontology actionRunId plan contract transition s = .ok (result, s')) :
    ∃ rows, editsOf ctx actionRunId s' = editsOf ctx actionRunId s ++ rows ∧
      rows.length = plan.plannedEdits.length := by
  obtain ⟨edits, t, hedits, hsame⟩ := commitPlan_eq_ok h
  obtain ⟨steps, hplanned, htrace⟩ := exists_trace hedits hsame
  refine ⟨steps.map Step.row, ?_, by rw [List.length_map, ← hplanned, List.length_map]⟩
  have hown : (steps.map Step.row).filter (fun edit =>
      edit.tenantId = ctx.tenantId && edit.actionRunId = actionRunId) = steps.map Step.row := by
    rw [List.filter_eq_self]
    intro row hrow
    obtain ⟨step, hstep, rfl⟩ := List.mem_map.mp hrow
    obtain ⟨-, htenant, hid⟩ := htrace.logged hstep
    simp [htenant, hid]
  rw [editsOf, htrace.edits, List.filter_append, hown]
  rfl

end Run

end FoundryLite.Actions
