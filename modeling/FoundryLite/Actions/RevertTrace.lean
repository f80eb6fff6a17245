import FoundryLite.Actions.CommitTrace
import FoundryLite.Actions.Revert

/-!
# What a revert does to the tables

The inverse of one logged edit, as a keyed write. The inverse of an object edit acts on the row
under the key of the revert, which need not be the row that the edit changed. The inverse of a link
edit is the opposite link edit.

An inverse succeeds whenever the checks of the revert hold of the row it looks at
(`exists_applyInverseEdit`), except that hiding a link fails when the link is visible under no index
version any more.

## Main results

* `isInverted_of_applyInverseEdit`: what a successful inverse did.
* `exists_applyInverseEdit`: when an inverse succeeds.
-/

namespace FoundryLite.Actions

open ObjectStore WriteLog Transaction

/-! ### Inverse effects -/

/-- What the inverse of an object edit found and left under the key of the revert. -/
def ObjectEffect.Inverts (ontology : Ontology) (e : ObjectEffect)
    (before after : Option ObjectRecord) : Prop :=
  ∃ row row' : ObjectRecord, before = some row ∧ after = some row' ∧
    match e.change with
    | .create => row'.isVisible = false
    | .modify record patch =>
      let editProperties := restoreOverlay row.editProperties (priorValues record patch)
      row'.isVisible = row.isVisible ∧ row'.editProperties = editProperties ∧
        row'.properties = mergeProperties (ontology.properties row.objectType) row.baseProperties
          editProperties
    | .delete _ => row'.isVisible = true ∧ row'.editProperties = row.editProperties ∧
        row'.properties = row.properties

/-- What the inverse of an effect did to the tables. -/
def Effect.IsInverted (ontology : Ontology) (s s' : Store) : Effect → Prop
  | .object e =>
    ActsAt (ObjectEffect.Inverts ontology) ObjectEffect.revertKey e s.objects.get? s'.objects.get? ∧
      s'.links = s.links
  | .link e => s'.objects = s.objects ∧ s.KeepsLinks s' ∧
      ActsAt LinkEffect.Writes LinkEffect.ends e.inverse (visibleVersions s) (visibleVersions s')

variable {env : Environment} {ctx : RequestContext} {ontology : Ontology}
  {revertRunId : String} {s s' : Store} {edit : ObjectEdit}

theorem rows_of_recordInverseEdit {committed : CommittedEdit}
    (h : recordInverseEdit env ctx revertRunId edit s = .ok (committed, s')) :
    s'.objects = s.objects ∧ s'.links = s.links := by
  simp only [recordInverseEdit, bind_eq_ok_iff, pure_eq_ok_iff,
    Prod.mk.injEq] at h
  obtain ⟨editId, s₁, hrecord, -, rfl⟩ := h
  obtain ⟨hobjects, hlinks, -⟩ := recordEdit_eq_ok hrecord
  exact ⟨hobjects, hlinks⟩

theorem exists_recordInverseEdit (s : Store) :
    ∃ committed s', recordInverseEdit env ctx revertRunId edit s = .ok (committed, s') :=
  ⟨_, _, rfl⟩

/-! ### Inverses of object edits -/

/-- A compare-and-set on the row under a key, as an update of the lookup. -/
theorem get?_of_conditionalObjectUpdate {tenantId : String} {key : ObjectKey} {row : ObjectRecord}
    {guard : ObjectRecord → Bool} {update : ObjectUpdate} (hrow : s.objects.get? key = some row)
    (h : conditionalObjectUpdate tenantId row.id guard update s = .ok (true, s')) :
    ∃ n, s'.objects.get? = Function.update s.objects.get? key (some ((update n).apply row)) ∧
      s'.links = s.links := by
  obtain ⟨hmem, hkey⟩ := Table.get?_eq_some_iff.mp hrow
  obtain ⟨n, found, hfound, hid, -, -, hobjects, hlinks, -⟩ := conditionalObjectUpdate_eq_true h
  obtain rfl : found = row := Table.eq_of_pk_eq hfound hmem hid
  refine ⟨n, funext fun k => ?_, hlinks⟩
  rw [hobjects, Table.get?_updateRow hfound, Function.update_apply, ← hkey]

theorem requiredTarget_eq_ok {key : ObjectKey} {row : ObjectRecord}
    (hkey : key = ⟨ctx.tenantId, edit.objectType, edit.objectId, activeIndexName⟩)
    (h : requiredTarget ctx edit s = .ok (row, s')) : s.objects.get? key = some row ∧ s' = s := by
  simp only [requiredTarget, bind_eq_ok_iff, get_eq_ok_iff,
    demandSome_eq_ok_iff, Prod.mk.injEq] at h
  obtain ⟨store, s₁, ⟨rfl, rfl⟩, found, hrow, rfl, rfl⟩ := h
  rw [hkey]
  exact ⟨hrow, rfl⟩

/-- The target of a revert is updated after the clock is read. -/
theorem isInverted_of_update {e : ObjectEffect} {row : ObjectRecord} {time : String}
    {guard : ObjectRecord → Bool} {update : ObjectUpdate} {s₁ s₂ : Store}
    (hkey : e.revertKey = ⟨ctx.tenantId, edit.objectType, edit.objectId, activeIndexName⟩)
    (htarget : requiredTarget ctx edit s = .ok (row, s₁)) (htime : now env s₁ = .ok (time, s₂))
    (hupdate : conditionalObjectUpdate ctx.tenantId row.id guard update s₂ = .ok (true, s'))
    (hinverts : ∀ n, e.Inverts ontology (some row) (some ((update n).apply row))) :
    (Effect.object e).IsInverted ontology s s' := by
  obtain ⟨hrow, rfl⟩ := requiredTarget_eq_ok hkey htarget
  have hsame := sameRows_of_now htime
  rw [← hsame.objects] at hrow
  obtain ⟨n, hobjects, hlinks⟩ := get?_of_conditionalObjectUpdate hrow hupdate
  rw [hsame.objects] at hobjects hrow
  exact ⟨⟨_, hrow ▸ hinverts n, hobjects⟩, hlinks.trans hsame.links⟩

theorem inverts_of_restoreProperties {e : ObjectEffect} {record : ObjectRecord}
    {patch : PropertyMap} {u : Unit} (hchange : e.change = .modify record patch)
    (hkey : e.revertKey = ⟨ctx.tenantId, edit.objectType, edit.objectId, activeIndexName⟩)
    (h : restoreProperties env ctx ontology edit (priorValues record patch) s = .ok (u, s')) :
    (Effect.object e).IsInverted ontology s s' := by
  simp only [restoreProperties, updateObjectTarget, bind_eq_ok_iff, demand_eq_ok_iff,
    Prod.mk.injEq] at h
  obtain ⟨row, s₁, htarget, time, s₂, htime, updated, s₃, hupdate, rfl, -, rfl⟩ := h
  refine isInverted_of_update hkey htarget htime hupdate fun n => ⟨row, _, rfl, rfl, ?_⟩
  rw [hchange]
  exact ⟨rfl, rfl, rfl⟩

theorem inverts_of_deleteCreatedObject {e : ObjectEffect} {version : ℕ+} {u : Unit}
    (hchange : e.change = .create)
    (hkey : e.revertKey = ⟨ctx.tenantId, edit.objectType, edit.objectId, activeIndexName⟩)
    (h : deleteCreatedObject env ctx revertRunId edit version s = .ok (u, s')) :
    (Effect.object e).IsInverted ontology s s' := by
  simp only [deleteCreatedObject, softDeleteObjectWrite, bind_eq_ok_iff,
    demand_eq_ok_iff, Prod.mk.injEq] at h
  obtain ⟨row, s₁, htarget, time, s₂, htime, deleted, s₃, hdelete, rfl, -, rfl⟩ := h
  refine isInverted_of_update hkey htarget htime hdelete fun n => ⟨row, _, rfl, rfl, ?_⟩
  rw [hchange]
  rfl

theorem inverts_of_restoreDeletedObject {e : ObjectEffect} {record : ObjectRecord} {version : ℕ+}
    {u : Unit} (hchange : e.change = .delete record)
    (hkey : e.revertKey = ⟨ctx.tenantId, edit.objectType, edit.objectId, activeIndexName⟩)
    (h : restoreDeletedObject env ctx edit version s = .ok (u, s')) :
    (Effect.object e).IsInverted ontology s s' := by
  simp only [restoreDeletedObject, restoreObjectWrite, bind_eq_ok_iff,
    demand_eq_ok_iff, Prod.mk.injEq] at h
  obtain ⟨row, s₁, htarget, time, s₂, htime, restored, s₃, hrestore, rfl, -, rfl⟩ := h
  refine isInverted_of_update hkey htarget htime hrestore fun n => ⟨row, _, rfl, rfl, ?_⟩
  rw [hchange]
  exact ⟨rfl, rfl, rfl⟩

/-! ### Inverses of link edits -/

theorem inverts_of_unlinkCreated {e : LinkEffect} {linkType : LinkTypeRow} {fromId toId : String}
    {u : Unit} (hends : e.ends = ⟨ctx.tenantId, linkType, fromId, toId⟩) (hcreation : e.isCreation)
    (h : unlinkCreated env ctx revertRunId linkType fromId toId s = .ok (u, s')) :
    (Effect.link e).IsInverted ontology s s' := by
  simp only [unlinkCreated, demandText, bind_eq_ok_iff, demand_eq_ok_iff,
    Prod.mk.injEq] at h
  obtain ⟨-, s₁, ⟨-, -, rfl⟩, -, s₂, ⟨-, -, rfl⟩, time, s₃, htime, deleted, s₄, hdelete, rfl, -,
    rfl⟩ := h
  have hsame := sameRows_of_now htime
  obtain ⟨hobjects, -, hkeeps, hfound, hvisible⟩ := softDeleteObjectLinkWrite_eq_ok hdelete
  refine ⟨hobjects.trans hsame.objects, (Store.KeepsLinks.of_links_eq hsame.links).trans hkeeps, ?_⟩
  rw [LinkEffect.inverse, hcreation, hends, ← visibleVersions_congr hsame.links]
  exact LinkEffect.actsAt_of_deletion (hfound.mp rfl) hvisible

theorem inverts_of_relinkDeleted {e : LinkEffect} {linkType : LinkTypeRow} {fromId toId : String}
    {u : Unit} (hends : e.ends = ⟨ctx.tenantId, linkType, fromId, toId⟩)
    (hdeletion : e.isCreation = false)
    (h : relinkDeleted env ctx linkType fromId toId s = .ok (u, s')) :
    (Effect.link e).IsInverted ontology s s' := by
  simp only [relinkDeleted, demandText, bind_eq_ok_iff, demand_eq_ok_iff,
    Prod.mk.injEq] at h
  obtain ⟨linkId, s₁, hid, -, s₂, ⟨-, -, rfl⟩, -, s₃, ⟨-, -, rfl⟩, time, s₄, htime, hcreate⟩ := h
  have hsame := (sameRows_of_newId hid).trans (sameRows_of_now htime)
  obtain ⟨hobjects, -, hkeeps, hvisible⟩ := createObjectLinkWrite_eq_ok hcreate
  refine ⟨hobjects.trans hsame.objects, (Store.KeepsLinks.of_links_eq hsame.links).trans hkeeps, ?_⟩
  rw [LinkEffect.inverse, hdeletion, hends, ← visibleVersions_congr hsame.links]
  exact LinkEffect.actsAt_of_creation hvisible

/-! ### When an inverse succeeds -/

/-- The key under which the revert looks for the object of a logged edit. -/
theorem revertKey_of_isLogged {e : ObjectEffect} (h : (Effect.object e).IsLogged ctx edit) :
    e.revertKey = ⟨ctx.tenantId, edit.objectType, edit.objectId, activeIndexName⟩ := by
  obtain ⟨htenant, htype, hid, -⟩ := h
  rw [ObjectEffect.revertKey, htenant, htype, hid]

theorem ends_of_isLogged {e : LinkEffect} (h : (Effect.link e).IsLogged ctx edit) :
    e.ends = ⟨ctx.tenantId, e.ends.linkType, e.ends.fromObjectId, e.ends.toObjectId⟩ := by
  rw [← h.1]

/-- **A successful inverse did what its effect calls for.** -/
theorem isInverted_of_applyInverseEdit {effect : Effect} {committed : CommittedEdit}
    (hlogged : effect.IsLogged ctx edit)
    (h : applyInverseEdit env ctx ontology revertRunId edit s = .ok (committed, s')) :
    effect.IsInverted ontology s s' := by
  simp only [applyInverseEdit, bind_eq_ok_iff, demandSome_eq_ok_iff,
    Prod.mk.injEq] at h
  obtain ⟨_, s₁, ⟨payload, hpayload, rfl, rfl⟩, u, s₂, hinvert, hrecord⟩ := h
  obtain ⟨hobjects, hlinks⟩ := rows_of_recordInverseEdit hrecord
  cases effect with
  | object e =>
    have hkey := revertKey_of_isLogged hlogged
    have hevidence := hlogged.2.2.2
    rw [hpayload, Option.some.injEq] at hevidence
    suffices hinverted : (Effect.object e).IsInverted ontology s s₂ by
      rw [Effect.IsInverted, hobjects, hlinks]
      exact hinverted
    cases hchange : e.change with
    | create =>
      rw [hevidence, ObjectEffect.payload, hchange] at hinvert
      exact inverts_of_deleteCreatedObject hchange hkey hinvert
    | modify record patch =>
      rw [hevidence, ObjectEffect.payload, hchange] at hinvert
      exact inverts_of_restoreProperties hchange hkey hinvert
    | delete record =>
      rw [hevidence, ObjectEffect.payload, hchange] at hinvert
      exact inverts_of_restoreDeletedObject hchange hkey hinvert
  | link e =>
    have hends := ends_of_isLogged hlogged
    have hevidence := hlogged.2
    rw [hpayload, Option.some.injEq] at hevidence
    suffices hinverted : (Effect.link e).IsInverted ontology s s₂ by
      rw [Effect.IsInverted, hobjects, visibleVersions_congr hlinks]
      exact ⟨hinverted.1, hinverted.2.1.trans (Store.KeepsLinks.of_links_eq hlinks), hinverted.2.2⟩
    cases hcreation : e.isCreation with
    | true =>
      rw [hevidence, LinkEffect.payload, hcreation] at hinvert
      exact inverts_of_unlinkCreated hends hcreation hinvert
    | false =>
      rw [hevidence, LinkEffect.payload, hcreation] at hinvert
      exact inverts_of_relinkDeleted hends hcreation hinvert

/-- What the revert has to find for an effect in order to invert it. -/
def Effect.IsInvertible (s : Store) : Effect → Prop
  | .object e => ∃ row, s.objects.get? e.revertKey = some row ∧
      row.objectVersion = e.after.objectVersion ∧ row.deleted = e.isDeletion
  | .link e => e.ends.fromObjectId ≠ "" ∧ e.ends.toObjectId ≠ "" ∧
      if e.isCreation then ∃ version, visibleVersions s e.ends version = true
      else s.hasLink (e.ends, activeIndexName) = true

/-- A compare-and-set on the target of a revert succeeds if the target passes the guard. -/
theorem exists_updateTarget {row : ObjectRecord} (guard : ObjectRecord → Bool)
    (update : ObjectUpdate)
    (hrow : s.objects.get? ⟨ctx.tenantId, edit.objectType, edit.objectId, activeIndexName⟩
      = some row) (hguard : guard row) :
    ∃ s', conditionalObjectUpdate ctx.tenantId row.id guard update s = .ok (true, s') := by
  obtain ⟨hmem, hkey⟩ := Table.get?_eq_some_iff.mp hrow
  have htenant : row.tenantId = ctx.tenantId := congrArg ObjectKey.tenantId hkey
  rw [← htenant]
  exact exists_conditionalObjectUpdate update hmem hguard

theorem requiredTarget_eq {row : ObjectRecord}
    (hrow : s.objects.get? ⟨ctx.tenantId, edit.objectType, edit.objectId, activeIndexName⟩
      = some row) : requiredTarget ctx edit s = .ok (row, s) := by
  simp only [requiredTarget, bind_eq_ok_iff, get_eq_ok_iff,
    demandSome_eq_ok_iff, Prod.mk.injEq]
  exact ⟨s, s, ⟨rfl, rfl⟩, row, hrow, rfl, rfl⟩

/-- The inverse of an object edit succeeds when the row it looks at is at the version the edit left
and is deleted as the edit left it. -/
theorem exists_invertEdit_of_object {e : ObjectEffect} {row : ObjectRecord}
    (hsound : e.IsSound ontology)
    (hrow : s.objects.get? ⟨ctx.tenantId, edit.objectType, edit.objectId, activeIndexName⟩
      = some row)
    (hversion : row.objectVersion = e.after.objectVersion) (hdeleted : row.deleted = e.isDeletion) :
    ∃ s', invertEdit env ctx ontology revertRunId edit e.payload s = .ok ((), s') := by
  have htarget := requiredTarget_eq hrow
  cases hchange : e.change with
  | create =>
    rw [ObjectEffect.IsSound, hchange] at hsound
    simp only [ObjectEffect.payload, hchange, createdObjectRevertPayload, invertEdit,
      deleteCreatedObject, softDeleteObjectWrite, bind_eq_ok_iff, demand_eq_ok_iff]
    obtain ⟨s', hs'⟩ := exists_updateTarget (s := { s with ticks := s.ticks + 1 })
      (fun row => (row.objectVersion : ℕ) = ((1 : ℕ+) : ℕ))
      (softDeletion ⟨row.id, ctx.tenantId, (1 : ℕ+), s!"revert:{revertRunId}", env.nowAt s.ticks⟩)
      hrow (by simp [hversion, hsound.2.2.2])
    exact ⟨s', row, s, htarget, _, _, now_eq env s, true, s', hs', rfl, rfl⟩
  | modify record patch =>
    simp only [ObjectEffect.payload, hchange, propertyRevertPayload, invertEdit,
      restoreProperties, updateObjectTarget, bind_eq_ok_iff, demand_eq_ok_iff]
    let overlay := restoreOverlay row.editProperties (priorValues record patch)
    obtain ⟨s', hs'⟩ := exists_updateTarget (s := { s with ticks := s.ticks + 1 })
      (fun r => (r.objectVersion : ℕ) = (row.objectVersion : ℕ))
      (targetUpdate ⟨row.id, ctx.tenantId, row.objectVersion, overlay,
        mergeProperties (ontology.properties row.objectType) row.baseProperties overlay,
        row.objectVersion + 1, env.nowAt s.ticks⟩) hrow (by simp)
    exact ⟨s', row, s, htarget, _, _, now_eq env s, true, s', hs', rfl, rfl⟩
  | delete record =>
    rw [ObjectEffect.IsSound, hchange] at hsound
    obtain ⟨-, reason, n, time, hafter⟩ := hsound
    simp only [ObjectEffect.payload, hchange, deletedObjectRevertPayload, invertEdit,
      restoreDeletedObject, restoreObjectWrite, bind_eq_ok_iff, demand_eq_ok_iff]
    obtain ⟨s', hs'⟩ := exists_updateTarget (s := { s with ticks := s.ticks + 1 })
      (fun row =>
        (row.objectVersion : ℕ) = ((record.objectVersion + 1 : ℕ+) : ℕ) && row.deleted)
      (restoration ⟨row.id, ctx.tenantId, (record.objectVersion + 1 : ℕ+), env.nowAt s.ticks⟩)
      hrow (by simp [hversion, hdeleted, hafter, ObjectEffect.isDeletion, hchange])
    exact ⟨s', row, s, htarget, _, _, now_eq env s, true, s', hs', rfl, rfl⟩

/-- The inverse of a link creation succeeds when the link is visible under some index version, and
that of a link deletion when a row of the link is stored under `"active"`. -/
theorem exists_invertEdit_of_link {e : LinkEffect} (htenant : e.ends.tenantId = ctx.tenantId)
    (h : (Effect.link e).IsInvertible s) :
    ∃ s', invertEdit env ctx ontology revertRunId edit e.payload s = .ok ((), s') := by
  obtain ⟨hfrom, hto, hlink⟩ := h
  have hends : e.ends
      = ⟨ctx.tenantId, e.ends.linkType, e.ends.fromObjectId, e.ends.toObjectId⟩ := by
    rw [← htenant]
  cases hcreation : e.isCreation with
  | true =>
    simp only [LinkEffect.payload, hcreation, if_true, invertEdit, unlinkCreated, demandText,
      bind_eq_ok_iff, demand_eq_ok_iff] at hlink ⊢
    let write : ObjectLinkDeleteWrite :=
      ⟨ctx.tenantId, e.ends.linkType, e.ends.fromObjectId, e.ends.toObjectId,
        s!"revert:{revertRunId}", env.nowAt s.ticks⟩
    obtain ⟨isDeleted, s', hs'⟩ := exists_softDeleteObjectLinkWrite write { s with ticks := s.ticks + 1 }
    have hdeleted : isDeleted = true := by
      rw [(softDeleteObjectLinkWrite_eq_ok hs').2.2.2.1, ObjectLinkDeleteWrite.ends, ← hends]
      exact hlink
    subst hdeleted
    exact ⟨s', (), s, ⟨by simpa using hfrom, rfl⟩, (), s, ⟨by simpa using hto, rfl⟩, _, _,
      now_eq env s, true, s', hs', rfl, rfl⟩
  | false =>
    simp only [LinkEffect.payload, hcreation, invertEdit, relinkDeleted, demandText,
      bind_eq_ok_iff, demand_eq_ok_iff, Bool.false_eq_true, if_false] at hlink ⊢
    let write : ObjectLinkWrite :=
      ⟨"lnk" ++ "_" ++ env.newIdAt s.ticks, ctx.tenantId, e.ends.linkType, e.ends.fromObjectId,
        e.ends.toObjectId, env.nowAt (s.ticks + 1)⟩
    have hstored : Store.hasLink { s with ticks := s.ticks + 1 + 1 }
        (write.ends, activeIndexName) = true := by
      rw [ObjectLinkWrite.ends, ← hends]
      exact hlink
    obtain ⟨s', hs'⟩ := exists_createObjectLinkWrite hstored
    exact ⟨s', _, _, newId_eq env "lnk" s, (), _, ⟨by simpa using hfrom, rfl⟩, (), _,
      ⟨by simpa using hto, rfl⟩, _, _, now_eq env _, hs'⟩

/-- **An inverse succeeds when the revert finds what it has to find.** -/
theorem exists_applyInverseEdit {effect : Effect} (hlogged : effect.IsLogged ctx edit)
    (hsound : ∀ e, effect = .object e → e.IsSound ontology) (h : effect.IsInvertible s) :
    ∃ committed s', applyInverseEdit env ctx ontology revertRunId edit s = .ok (committed, s') := by
  obtain ⟨payload, hpayload, s₁, hinvert⟩ : ∃ payload, edit.revertPayload = some payload ∧
      ∃ s₁, invertEdit env ctx ontology revertRunId edit payload s = .ok ((), s₁) := by
    cases effect with
    | object e =>
      obtain ⟨row, hrow, hversion, hdeleted⟩ := h
      rw [revertKey_of_isLogged hlogged] at hrow
      exact ⟨_, hlogged.2.2.2, exists_invertEdit_of_object (hsound e rfl) hrow hversion hdeleted⟩
    | link e => exact ⟨_, hlogged.2, exists_invertEdit_of_link hlogged.1 h⟩
  obtain ⟨committed, s', hrecord⟩ : ∃ committed s', recordInverseEdit env ctx revertRunId edit s₁ =
      .ok (committed, s') := exists_recordInverseEdit s₁
  refine ⟨committed, s', ?_⟩
  simp only [applyInverseEdit, bind_eq_ok_iff, demandSome_eq_ok_iff]
  exact ⟨payload, s, ⟨payload, hpayload, rfl⟩, (), s₁, hinvert, hrecord⟩

/-! ### Reversals -/

/-- The effects of a list of steps, inverted one after another. -/
def Reversal (ontology : Ontology) : Store → List Step → Store → Prop
  | s, [], t => t = s
  | s, step :: steps, t => ∃ s₁, step.effect.IsInverted ontology s s₁ ∧ Reversal ontology s₁ steps t

/-- A successful loop over the log rows of some steps inverts their effects. -/
theorem reversal_of_mapM {steps : List Step} {committed : List CommittedEdit}
    (hlogged : ∀ step ∈ steps, step.effect.IsLogged ctx step.row)
    (h : (steps.map Step.row).mapM (applyInverseEdit env ctx ontology revertRunId) s
      = .ok (committed, s')) : Reversal ontology s steps s' := by
  induction steps generalizing s committed with
  | nil =>
    obtain ⟨-, rfl⟩ := Prod.mk.inj (mapM_nil_eq_ok_iff.mp h)
    rfl
  | cons step steps ih =>
    obtain ⟨edit, s₁, edits, hedit, hrest, -⟩ := mapM_cons_eq_ok_iff.mp h
    exact ⟨s₁, isInverted_of_applyInverseEdit (hlogged step List.mem_cons_self) hedit,
      ih (fun x hx => hlogged x (List.mem_cons_of_mem step hx)) hrest⟩

theorem Reversal.objects {steps : List Step} (h : Reversal ontology s steps s') :
    Runs (ObjectEffect.Inverts ontology) ObjectEffect.revertKey s.objects.get?
      (steps.filterMap Step.object?) s'.objects.get? := by
  induction steps generalizing s with
  | nil => rw [show s' = s from h, List.filterMap_nil, Runs]
  | cons step steps ih =>
    obtain ⟨s₁, hinverted, hrest⟩ := h
    cases hcase : step.effect with
    | object e =>
      rw [hcase] at hinverted
      rw [List.filterMap_cons_some (b := e) (by rw [Step.object?, hcase])]
      exact ⟨_, hinverted.1, ih hrest⟩
    | link e =>
      rw [hcase] at hinverted
      rw [List.filterMap_cons_none (by rw [Step.object?, hcase]), ← hinverted.1]
      exact ih hrest

theorem Reversal.links {steps : List Step} (h : Reversal ontology s steps s') :
    Runs LinkEffect.Writes LinkEffect.ends (visibleVersions s)
      ((steps.filterMap Step.link?).map LinkEffect.inverse) (visibleVersions s') := by
  induction steps generalizing s with
  | nil => rw [show s' = s from h, List.filterMap_nil, List.map_nil, Runs]
  | cons step steps ih =>
    obtain ⟨s₁, hinverted, hrest⟩ := h
    cases hcase : step.effect with
    | object e =>
      rw [hcase] at hinverted
      rw [List.filterMap_cons_none (by rw [Step.link?, hcase]),
        ← visibleVersions_congr hinverted.2]
      exact ih hrest
    | link e =>
      rw [hcase] at hinverted
      rw [List.filterMap_cons_some (b := e) (by rw [Step.link?, hcase]), List.map_cons]
      exact ⟨_, hinverted.2.2, ih hrest⟩

/-- Inverting one effect leaves another invertible when they do not meet. -/
theorem Effect.IsInvertible.of_isInverted {effect other : Effect}
    (h : effect.IsInverted ontology s s') (hother : other.IsInvertible s)
    (hobjects : ∀ e, effect = .object e → ∀ e', other = .object e' → e.revertKey ≠ e'.revertKey)
    (hlinks : ∀ e, effect = .link e → ∀ e', other = .link e' → e.ends ≠ e'.ends) :
    other.IsInvertible s' := by
  cases other with
  | object e' =>
    obtain ⟨row, hrow, hrest⟩ := hother
    refine ⟨row, ?_, hrest⟩
    cases effect with
    | object e => rw [h.1.apply_of_ne (hobjects e rfl e' rfl).symm, hrow]
    | link e => rw [h.1, hrow]
  | link e' =>
    obtain ⟨hfrom, hto, hlink⟩ := hother
    refine ⟨hfrom, hto, ?_⟩
    have hkeeps : s.KeepsLinks s' := by
      cases effect with
      | object e => exact Store.KeepsLinks.of_links_eq h.2
      | link e => exact h.2.1
    have hvisible : visibleVersions s' e'.ends = visibleVersions s e'.ends := by
      cases effect with
      | object e => rw [visibleVersions_congr h.2]
      | link e => exact h.2.2.apply_of_ne (hlinks e rfl e' rfl).symm
    split_ifs at hlink ⊢
    · rwa [hvisible]
    · exact hkeeps _ hlink

end FoundryLite.Actions
