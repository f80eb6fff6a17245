import FoundryLite.Actions.RevertTrace

/-!
# What the checks of a revert establish

Every check looks at one edit. Taken together they say more: no two object edits of the run acted
on the same object (`CheckedTrace.pairwise_revertKey`), and no link was both created and deleted.
A creation followed by a modification of the same object, for example, leaves the object at version
2, and the check of the creation asks for version 1.

## Main results

* `CheckedTrace.pairwise_revertKey`: the object edits act on pairwise different objects.
* `CheckedTrace.pairwise_ends`: so do the link edits, if no link is created twice.
-/

namespace FoundryLite.Actions

open ObjectStore WriteLog

/-! ### What the checks establish -/

/-- What the checks of a revert establish about an effect. -/
def Effect.IsRevertible (s : Store) : Effect → Prop
  | .object e => ∃ row, s.objects.get? e.revertKey = some row ∧
      row.objectVersion = e.after.objectVersion ∧ row.deleted = e.isDeletion
  | .link e => e.ends.fromObjectId ≠ "" ∧ e.ends.toObjectId ≠ "" ∧
      visibleVersions s e.ends activeIndexName = e.isCreation

variable {env : Environment} {ctx : RequestContext} {ontology : Ontology} {actionRunId : String}
  {s s₁ s₂ : Store} {edit : ObjectEdit} {steps : List Step}

theorem objectStateBlocker_eq_none_iff {version : ℕ+} {shouldBeDeleted : Bool} :
    objectStateBlocker ctx s edit version shouldBeDeleted = none ↔
      ∃ row, s.objectTargetForRevert ctx.tenantId edit.objectType edit.objectId = some row ∧
        row.objectVersion = version ∧ row.deleted = shouldBeDeleted := by
  rw [objectStateBlocker]
  cases s.objectTargetForRevert ctx.tenantId edit.objectType edit.objectId with
  | none => simp
  | some row =>
    by_cases hversion : row.objectVersion = version <;>
      by_cases hdeleted : row.deleted = shouldBeDeleted <;> simp [hversion, hdeleted]

theorem linkStateBlocker_eq_none_iff {linkType : LinkTypeRow} {fromId toId : String}
    {expectedActive : Bool} :
    linkStateBlocker ctx s linkType fromId toId expectedActive = none ↔ fromId ≠ "" ∧ toId ≠ "" ∧
      visibleVersions s ⟨ctx.tenantId, linkType, fromId, toId⟩ activeIndexName = expectedActive := by
  rw [linkStateBlocker]
  by_cases hfrom : fromId = ""
  · simp [hfrom]
  by_cases hto : toId = ""
  · simp [hto]
  simp only [hfrom, hto, or_self, if_false, ne_eq, not_false_eq_true, true_and]
  rw [ite_eq_left_iff, visibleVersions, Store.isLinkVisible, Store.objectLinkForRevert]
  simp

/-- The version in the evidence of an object edit is the one the edit left. -/
theorem ObjectEffect.objectVersion_after {e : ObjectEffect} (hsound : e.IsSound ontology) :
    match e.change with
    | .create => e.after.objectVersion = 1
    | .modify record _ | .delete record => e.after.objectVersion = record.objectVersion + 1 := by
  cases hchange : e.change with
  | create =>
    rw [IsSound, hchange] at hsound
    exact hsound.2.2.2
  | modify record patch =>
    rw [IsSound, hchange] at hsound
    obtain ⟨-, n, time, hafter⟩ := hsound
    rw [hafter]
  | delete record =>
    rw [IsSound, hchange] at hsound
    obtain ⟨-, reason, n, time, hafter⟩ := hsound
    rw [hafter]

/-- An edit whose checks pass left what the revert has to find. -/
theorem isRevertible_of_editBlocker {run : ActionRun} {effect : Effect}
    (hlogged : effect.IsLogged ctx edit)
    (hsound : ∀ e, effect = .object e → e.IsSound ontology)
    (h : editBlocker ctx s run edit = none) : effect.IsRevertible s := by
  rw [editBlocker] at h
  split_ifs at h
  cases effect with
  | object e =>
    have hversion := e.objectVersion_after (hsound e rfl)
    rw [hlogged.2.2.2, ObjectEffect.payload] at h
    rw [Effect.IsRevertible, revertKey_of_isLogged hlogged, ObjectEffect.isDeletion]
    cases hchange : e.change with
    | create =>
      rw [hchange] at h hversion
      rw [hversion]
      exact objectStateBlocker_eq_none_iff.mp h
    | modify record patch =>
      rw [hchange] at h hversion
      rw [hversion]
      exact objectStateBlocker_eq_none_iff.mp h
    | delete record =>
      rw [hchange] at h hversion
      rw [hversion]
      exact objectStateBlocker_eq_none_iff.mp h
  | link e =>
    have hends := ends_of_isLogged hlogged
    rw [hlogged.2, LinkEffect.payload] at h
    rw [Effect.IsRevertible]
    cases hcreation : e.isCreation with
    | true =>
      rw [hcreation] at h
      rw [hends]
      exact linkStateBlocker_eq_none_iff.mp h
    | false =>
      rw [hcreation] at h
      rw [hends]
      exact linkStateBlocker_eq_none_iff.mp h

/-- A commit whose revert passed its checks, as a trace. -/
structure CheckedTrace (ctx : RequestContext) (ontology : Ontology) (actionRunId : String)
    (s : Store) (steps : List Step) (s₁ : Store) : Prop where
  trace : Trace ctx ontology actionRunId s steps s₁
  nodup_targets : ((steps.map Step.planned).filterMap fun e => e.target.map Prod.fst).Nodup
  revertible : ∀ step ∈ steps, step.effect.IsRevertible s₁

/-- An edit of an object that was there is meant for the name of that object. -/
theorem target_of_realises {u : Store} {planned : PlannedEdit} {e : ObjectEffect}
    {record : ObjectRecord} (h : Effect.Realises ctx ontology u planned (.object e))
    (hbefore : e.before = some record) :
    ∃ target ∈ planned.target.map Prod.fst,
      u.objectRecord (nameIn ctx target) = some record := by
  obtain ⟨change, after⟩ := e
  cases change with
  | create => simp [ObjectEffect.before] at hbefore
  | modify found patch =>
    obtain rfl : found = record := Option.some.inj hbefore
    cases planned with
    | modifyObject m => exact ⟨_, rfl, h.1⟩
    | createObject _ | deleteObject _ | createLink _ | deleteLink _ => exact h.elim
  | delete found =>
    obtain rfl : found = record := Option.some.inj hbefore
    cases planned with
    | deleteObject d => exact ⟨_, rfl, h⟩
    | createObject _ | modifyObject _ | createLink _ | deleteLink _ => exact h.elim

namespace ObjectEffect

variable {e e' : ObjectEffect} {record : ObjectRecord}

/-- An edit of an object that was there keeps its key and finds it active. -/
theorem IsSound.of_before (h : e.IsSound ontology) (hbefore : e.before = some record) :
    record.isActive = true ∧ e.key = record.identity ∧
      e.after.objectVersion = record.objectVersion + 1 := by
  obtain ⟨change, after⟩ := e
  cases change with
  | create => simp [before] at hbefore
  | modify found patch =>
    obtain rfl : found = record := Option.some.inj hbefore
    obtain ⟨hactive, n, time, rfl⟩ := h
    exact ⟨hactive, rfl, rfl⟩
  | delete found =>
    obtain rfl : found = record := Option.some.inj hbefore
    obtain ⟨hactive, reason, n, time, rfl⟩ := h
    exact ⟨hactive, rfl, rfl⟩

/-- Only a creation leaves version 1. -/
theorem IsSound.objectVersion_ne_one (h : e.IsSound ontology) (hbefore : e.before = some record) :
    e.after.objectVersion ≠ 1 := by
  rw [(h.of_before hbefore).2.2]
  intro hone
  have hpos := record.objectVersion.pos
  have hval : (record.objectVersion : ℕ) + 1 = 1 := congrArg PNat.val hone
  omega

theorem IsSound.of_before_none (h : e.IsSound ontology) (hbefore : e.before = none) :
    e.after.indexVersion = activeIndexName ∧ e.after.objectVersion = 1 := by
  obtain ⟨change, after⟩ := e
  cases change with
  | create => exact ⟨h.1, h.2.2.2⟩
  | modify found patch => simp [before] at hbefore
  | delete found => simp [before] at hbefore

theorem revertKey_eq : e.revertKey = { e.key with indexVersion := activeIndexName } := rfl

theorem revertKey_eq_key_iff : e.revertKey = e.key ↔ e.after.indexVersion = activeIndexName := by
  simp [revertKey, key, ObjectRecord.identity, eq_comm]

/-- Effects with different revert keys do not meet at all. -/
theorem key_ne_of_revertKey_ne (h : e.revertKey ≠ e'.revertKey) :
    e.key ≠ e'.key ∧ e.key ≠ e'.revertKey := by
  rw [revertKey_eq, revertKey_eq] at h
  refine ⟨fun hkey => h (by rw [hkey]), fun hkey => h ?_⟩
  rw [hkey, revertKey_eq]

theorem before_eq_none_iff : e.before = none ↔ e.change = .create := by
  rw [before]
  cases e.change <;> simp

end ObjectEffect

/-- In a run where every link is only created or only deleted, no link is deleted twice: the first
deletion leaves nothing to delete. -/
theorem pairwise_ends_of_deletions {m m' : LinkEnds → String → Bool} {log : List LinkEffect}
    (h : Runs LinkEffect.Writes LinkEffect.ends m log m')
    (hkind : ∀ e ∈ log, ∀ e' ∈ log, e.ends = e'.ends → e.isCreation = e'.isCreation) :
    log.Pairwise fun e e' => e.isCreation = false → e'.isCreation = false → e.ends ≠ e'.ends := by
  refine h.pairwise_ne (P := fun visible => visible = fun _ => false)
    (p := fun e => e.isCreation = false) (q := fun e => e.isCreation = false) ?_ ?_ ?_
  · intro e _ hdeletion before after hwrites
    rw [LinkEffect.Writes, hdeletion] at hwrites
    exact hwrites.2
  · intro e he hdeletion e' he' hends before after hwrites _
    rw [LinkEffect.Writes, hkind e' he' e he hends, hdeletion] at hwrites
    exact hwrites.2
  · rintro e _ hdeletion before after hwrites rfl
    rw [LinkEffect.Writes, hdeletion] at hwrites
    obtain ⟨⟨version, hvisible⟩, -⟩ := hwrites
    exact Bool.false_ne_true hvisible

namespace CheckedTrace

theorem isSound (h : CheckedTrace ctx ontology actionRunId s steps s₁) {step : Step}
    {e : ObjectEffect} (hstep : step ∈ steps) (hcase : step.effect = .object e) :
    e.IsSound ontology :=
  h.trace.isSound hstep hcase

/-- An edit of an object that was there is meant for the name of that object. -/
theorem target_of_before (h : CheckedTrace ctx ontology actionRunId s steps s₁) {step : Step}
    {e : ObjectEffect} {record : ObjectRecord} (hstep : step ∈ steps)
    (hcase : step.effect = .object e) (hbefore : e.before = some record) :
    ∃ target ∈ step.planned.target.map Prod.fst, nameIn ctx target = e.revertKey.name := by
  obtain ⟨u, hrealises, -⟩ := h.trace.realises h.nodup_targets hstep
  rw [hcase] at hrealises
  obtain ⟨target, htarget, hfound⟩ := target_of_realises hrealises hbefore
  refine ⟨target, htarget, ?_⟩
  have hkey := ((h.isSound hstep hcase).of_before hbefore).2.1
  rw [← (Store.objectRecord_eq_some hfound).2.1, ObjectRecord.name_eq, ← hkey]
  rfl

/-- **No two object edits of a checked trace act on the same object.** -/
theorem pairwise_revertKey (h : CheckedTrace ctx ontology actionRunId s steps s₁) :
    (steps.filterMap Step.object?).Pairwise fun e e' => e.revertKey ≠ e'.revertKey := by
  have htargets := List.pairwise_map.mp
    (List.pairwise_filterMap.mp (List.nodup_iff_pairwise_ne.mp h.nodup_targets))
  have hcreations := List.pairwise_filterMap.mp <| h.trace.objects.pairwise_ne
    (P := fun value => value.isSome) (p := fun _ => True) (q := fun e => e.before = none)
    (fun e _ _ a b hab => by rw [hab.2.2]; rfl)
    (fun e _ _ v _ _ a b hab _ => by rw [hab.2.2]; rfl)
    (fun e _ hnone a b hab => by rw [hab.2.1, hnone]; simp)
  rw [List.pairwise_filterMap]
  refine (htargets.and hcreations).imp_of_mem ?_
  rintro step step' hstep hstep' ⟨htarget, hcreation⟩ e he e' he' hkey
  have hcase := Step.object?_eq_some_iff.mp he
  have hcase' := Step.object?_eq_some_iff.mp he'
  have hrevertible := h.revertible step hstep
  have hrevertible' := h.revertible step' hstep'
  rw [hcase] at hrevertible
  rw [hcase'] at hrevertible'
  obtain ⟨row, hrow, hversion, -⟩ := hrevertible
  obtain ⟨row', hrow', hversion', -⟩ := hrevertible'
  obtain rfl : row = row' := Option.some.inj (by rw [← hrow, ← hrow', hkey])
  have hsound := h.isSound hstep hcase
  have hsound' := h.isSound hstep' hcase'
  cases hbefore : e.before with
  | none =>
    obtain ⟨hindex, hone⟩ := hsound.of_before_none hbefore
    cases hbefore' : e'.before with
    | none =>
      obtain ⟨hindex', -⟩ := hsound'.of_before_none hbefore'
      refine hcreation e he e' he' trivial hbefore' ?_
      rw [← ObjectEffect.revertKey_eq_key_iff.mpr hindex, hkey,
        ObjectEffect.revertKey_eq_key_iff.mpr hindex']
    | some record' =>
      exact hsound'.objectVersion_ne_one hbefore' (by rw [← hversion', hversion, hone])
  | some record =>
    cases hbefore' : e'.before with
    | none =>
      obtain ⟨-, hone⟩ := hsound'.of_before_none hbefore'
      exact hsound.objectVersion_ne_one hbefore (by rw [← hversion, hversion', hone])
    | some record' =>
      obtain ⟨target, hmem, hname⟩ := h.target_of_before hstep hcase hbefore
      obtain ⟨target', hmem', hname'⟩ := h.target_of_before hstep' hcase' hbefore'
      rw [← hkey, ← hname] at hname'
      simp only [nameIn, ObjectName.mk.injEq, true_and] at hname'
      exact htarget target hmem target' hmem' (Prod.ext hname'.1.symm hname'.2.symm)

/-- A link edit left its link visible under `"active"` exactly if it is a creation. -/
theorem visible_active (h : CheckedTrace ctx ontology actionRunId s steps s₁) {e : LinkEffect}
    (he : e ∈ steps.filterMap Step.link?) :
    visibleVersions s₁ e.ends activeIndexName = e.isCreation := by
  obtain ⟨step, hstep, hlink⟩ := List.mem_filterMap.mp he
  have hrevertible := h.revertible step hstep
  rw [Step.link?_eq_some_iff.mp hlink] at hrevertible
  exact hrevertible.2.2

theorem isCreation_eq (h : CheckedTrace ctx ontology actionRunId s steps s₁) {e e' : LinkEffect}
    (he : e ∈ steps.filterMap Step.link?) (he' : e' ∈ steps.filterMap Step.link?)
    (hends : e.ends = e'.ends) : e.isCreation = e'.isCreation := by
  rw [← h.visible_active he, ← h.visible_active he', hends]

/-- **No two link edits of a checked trace act on the same link**, if no link is created twice. -/
theorem pairwise_ends (h : CheckedTrace ctx ontology actionRunId s steps s₁)
    (hcreated : (steps.filterMap Step.link?).Pairwise fun e e' =>
      e.isCreation = true → e'.isCreation = true → e.ends ≠ e'.ends) :
    (steps.filterMap Step.link?).Pairwise fun e e' => e.ends ≠ e'.ends := by
  have hdeleted := pairwise_ends_of_deletions h.trace.links fun e he e' he' => h.isCreation_eq he he'
  refine (hcreated.and hdeleted).imp_of_mem ?_
  rintro e e' he he' ⟨hcreated, hdeleted⟩ hends
  cases hkind : e.isCreation with
  | true => exact hcreated hkind (h.isCreation_eq he he' hends ▸ hkind) hends
  | false => exact hdeleted hkind (h.isCreation_eq he he' hends ▸ hkind) hends

end CheckedTrace

end FoundryLite.Actions
