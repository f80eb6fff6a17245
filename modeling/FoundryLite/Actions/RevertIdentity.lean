import FoundryLite.Actions.RevertChecks
import Mathlib.Data.List.Perm.Basic

/-!
# Commit followed by revert

A revert is meant to be the inverse of its commit on what readers see: the visible objects with
their merged properties and edit properties, and the visible links. The evidence stored with the
edits does not always suffice for that. Creating a link that is already there is an upsert, and its
inverse deletes the link, whoever created it first; the evidence does not say whether the link was
there. Deleting a link hides it under every index version, and its inverse brings it back under
`"active"` only. And the inverse of a modification recomputes the merged properties, which gives
back the properties from before only if those were merged in the same way.

`restores_iff_isReversible` says exactly when the revert restores what readers saw, as a condition
on the plan and the store before the commit. The revert runs over the log rows in an order that
depends on the clock and the ids, so the proof does not depend on that order: by
`CheckedTrace.pairwise_revertKey` and `CheckedTrace.pairwise_ends` no two inverses meet.

## Main results

* `CheckedTrace.objects_iff`, `CheckedTrace.links_iff`: when objects and links are restored.
* `restores_iff_isReversible`: the condition is exact.
* `not_restores_knows`: a link that was there before is lost.
-/

namespace FoundryLite.Actions

open ObjectStore WriteLog

/-! ### Visible state -/

/-- What readers see under a key: the merged properties and the edit properties. -/
def visibleObject (s : Store) (key : ObjectKey) : Option (PropertyMap × PropertyMap) :=
  ((s.objects.get? key).filter ObjectRecord.isVisible).map fun row =>
    (row.properties, row.editProperties)

/-- The same objects are visible, with the same properties and edit properties, and the same
links. -/
structure SameVisibleState (s s' : Store) : Prop where
  objects : visibleObject s' = visibleObject s
  links : visibleVersions s' = visibleVersions s

theorem visibleObject_of_get? {s : Store} {key : ObjectKey} {row : ObjectRecord}
    (h : s.objects.get? key = some row) :
    visibleObject s key
      = if row.isVisible then some (row.properties, row.editProperties) else none := by
  rw [visibleObject, h, Option.filter_some]
  split_ifs <;> rfl

theorem visibleObject_congr {s s' : Store} {key : ObjectKey}
    (h : s'.objects.get? key = s.objects.get? key) : visibleObject s' key = visibleObject s key := by
  rw [visibleObject, visibleObject, h]

/-! ### When an effect is undone -/

/-- The properties are the merge of the source layer and the edit overlay. -/
def IsMerged (ontology : Ontology) (record : ObjectRecord) : Prop :=
  record.properties = mergeProperties (ontology.properties record.objectType)
    record.baseProperties record.editProperties

/-- When the revert undoes a modification. The row that is modified is the first active one of its
name, and the row that is restored is the one filed under `"active"`. -/
structure IsModifyUndone (ontology : Ontology) (s : Store) (record : ObjectRecord)
    (patch : PropertyMap) : Prop where
  /-- If they are the same row, its properties were merged. -/
  same : record.indexVersion = activeIndexName → IsMerged ontology record
  /-- If not, the modified row must not visibly change, since nothing restores it ... -/
  modified : record.indexVersion ≠ activeIndexName → record.deleted = false →
    record.editProperties.update patch = record.editProperties ∧ IsMerged ontology record
  /-- ... nor must the restored one. -/
  restored : record.indexVersion ≠ activeIndexName → ∀ row,
    s.objects.get? { record.identity with indexVersion := activeIndexName } = some row →
      row.isVisible = true →
      restoreOverlay row.editProperties (priorValues record patch) = row.editProperties ∧
        IsMerged ontology row

def ObjectEffect.IsUndone (ontology : Ontology) (s : Store) (e : ObjectEffect) : Prop :=
  match e.change with
  | .create => True
  | .modify record patch => IsModifyUndone ontology s record patch
  | .delete record => record.indexVersion = activeIndexName ∧ record.deleted = false

/-- When the revert undoes a link edit: a created link was visible under no index version, and a
deleted one under `"active"` only. -/
def LinkEffect.IsUndone (s : Store) (e : LinkEffect) : Prop :=
  if e.isCreation then ∀ version, visibleVersions s e.ends version = false
  else ∀ version, visibleVersions s e.ends version = true → version = activeIndexName

variable {ctx : RequestContext} {ontology : Ontology} {actionRunId : String} {s s₁ s₂ : Store}
  {steps steps' : List Step}

/-- The visibility of one link, across an edit and its inverse. -/
theorem LinkEffect.eq_iff_isUndone {e : LinkEffect}
    (hwrites : e.Writes (visibleVersions s e.ends) (visibleVersions s₁ e.ends))
    (hinverse : e.inverse.Writes (visibleVersions s₁ e.ends) (visibleVersions s₂ e.ends)) :
    visibleVersions s₂ e.ends = visibleVersions s e.ends ↔ e.IsUndone s := by
  cases hkind : e.isCreation with
  | true =>
    simp only [Writes, inverse, hkind, Bool.not_true, Bool.false_eq_true, if_false] at hinverse
    rw [hinverse.2, IsUndone, if_pos hkind, funext_iff]
    exact forall_congr' fun version => eq_comm
  | false =>
    simp only [Writes, inverse, hkind, Bool.not_false, Bool.false_eq_true, if_false, if_true]
      at hwrites hinverse
    obtain ⟨⟨version, hvisible⟩, hhidden⟩ := hwrites
    rw [hinverse, hhidden, IsUndone, if_neg (by simp [hkind])]
    constructor
    · intro heq version hvisible
      by_contra hne
      rw [← heq, Function.update_of_ne hne] at hvisible
      exact Bool.false_ne_true hvisible
    · intro hactive
      funext version'
      by_cases hversion : version' = activeIndexName
      · rw [hversion, Function.update_self, ← hactive version hvisible, hvisible]
      · rw [Function.update_of_ne hversion]
        exact (Bool.eq_false_iff.mpr fun h => hversion (hactive version' h)).symm

/-- A row that stays as visible as it was shows the same if its properties stay the same. -/
theorem visibleObject_eq_iff {key : ObjectKey} {row row' : ObjectRecord}
    (hrow : s.objects.get? key = some row) (hrow' : s₂.objects.get? key = some row')
    (hvisible : row'.isVisible = row.isVisible) :
    visibleObject s₂ key = visibleObject s key ↔ (row.isVisible = true →
      row'.editProperties = row.editProperties ∧ row'.properties = row.properties) := by
  rw [visibleObject_of_get? hrow, visibleObject_of_get? hrow', hvisible]
  cases row.isVisible with
  | false => simp
  | true => simp [and_comm]

section

variable {record after : ObjectRecord} {patch : PropertyMap}

/-- What a modification leaves of the visible part of a record. -/
theorem ObjectEffect.IsSound.of_modify
    (h : (⟨.modify record patch, after⟩ : ObjectEffect).IsSound ontology) :
    (record.isVisible = true ↔ record.deleted = false) ∧ after.deleted = record.deleted ∧
      after.isVisible = record.isVisible ∧ after.objectType = record.objectType ∧
      after.baseProperties = record.baseProperties ∧
      after.editProperties = record.editProperties.update patch ∧
      after.properties = mergeProperties (ontology.properties record.objectType)
        record.baseProperties (record.editProperties.update patch) := by
  obtain ⟨hactive, n, time, rfl⟩ := h
  exact ⟨by simp [ObjectRecord.isVisible, hactive], rfl, rfl, rfl, rfl, rfl, rfl⟩

theorem ObjectEffect.IsSound.of_delete
    (h : (⟨.delete record, after⟩ : ObjectEffect).IsSound ontology) :
    after.editProperties = record.editProperties ∧ after.properties = record.properties := by
  obtain ⟨-, reason, n, time, rfl⟩ := h
  exact ⟨rfl, rfl⟩

/-- A modification of the row under `"active"` is undone if its properties were merged. -/
theorem visibleObject_of_modify_same {key : ObjectKey}
    (hsound : (⟨.modify record patch, after⟩ : ObjectEffect).IsSound ontology)
    (hactive : record.indexVersion = activeIndexName) (hbefore : s.objects.get? key = some record)
    (hinverts : (⟨.modify record patch, after⟩ : ObjectEffect).Inverts ontology
      (some after) (s₂.objects.get? key)) (hdeleted : after.deleted = false) :
    visibleObject s₂ key = visibleObject s key ↔ IsModifyUndone ontology s record patch := by
  obtain ⟨hseen, hkept, hvisible, htype, hbase, hedit, -⟩ := hsound.of_modify
  obtain ⟨row, row', hrow, hrow', hvisible', hedit', hproperties'⟩ := hinverts
  obtain rfl := Option.some.inj hrow
  have hrecord : record.isVisible = true := hseen.mpr (hkept.symm.trans hdeleted)
  rw [hedit, restoreOverlay_update] at hedit' hproperties'
  rw [htype, hbase] at hproperties'
  rw [visibleObject_eq_iff hbefore hrow' (hvisible'.trans hvisible), hedit', hproperties']
  exact ⟨fun h => ⟨fun _ => (h hrecord).2.symm, fun hne => (hne hactive).elim,
    fun hne => (hne hactive).elim⟩, fun h _ => ⟨rfl, (h.same hactive).symm⟩⟩

/-- A modification of any other row is undone if neither row changes visibly. -/
theorem visibleObject_of_modify_other {key revertKey : ObjectKey} {row : ObjectRecord}
    (hsound : (⟨.modify record patch, after⟩ : ObjectEffect).IsSound ontology)
    (hother : record.indexVersion ≠ activeIndexName)
    (hrevertKey : revertKey = { record.identity with indexVersion := activeIndexName })
    (hbefore : s.objects.get? key = some record) (hafter : s₂.objects.get? key = some after)
    (hrow : s.objects.get? revertKey = some row)
    (hinverts : (⟨.modify record patch, after⟩ : ObjectEffect).Inverts ontology
      (some row) (s₂.objects.get? revertKey)) :
    (visibleObject s₂ key = visibleObject s key ∧
      visibleObject s₂ revertKey = visibleObject s revertKey) ↔
        IsModifyUndone ontology s record patch := by
  obtain ⟨hseen, -, hvisible, -, -, hedit, hproperties⟩ := hsound.of_modify
  obtain ⟨found, row', hfound, hrow', hvisible', hedit', hproperties'⟩ := hinverts
  obtain rfl := Option.some.inj hfound
  rw [visibleObject_eq_iff hbefore hafter hvisible, visibleObject_eq_iff hrow hrow' hvisible', hseen,
    hedit, hproperties, hedit', hproperties']
  constructor
  · rintro ⟨hmodified, hrestored⟩
    refine ⟨fun hactive => (hother hactive).elim, fun _ hdeleted => ?_, fun _ found hfound hseen => ?_⟩
    · obtain ⟨hupdate, hmerged⟩ := hmodified hdeleted
      rw [hupdate] at hmerged
      exact ⟨hupdate, hmerged.symm⟩
    · rw [← hrevertKey, hrow] at hfound
      obtain rfl := Option.some.inj hfound
      obtain ⟨hoverlay, hmerged⟩ := hrestored hseen
      rw [hoverlay] at hmerged
      exact ⟨hoverlay, hmerged.symm⟩
  · intro h
    refine ⟨fun hdeleted => ?_, fun hfound => ?_⟩
    · obtain ⟨hupdate, hmerged⟩ := h.modified hother hdeleted
      rw [hupdate]
      exact ⟨rfl, hmerged.symm⟩
    · obtain ⟨hoverlay, hmerged⟩ := h.restored hother row (hrevertKey ▸ hrow) hfound
      rw [hoverlay]
      exact ⟨rfl, hmerged.symm⟩

end

/-- What readers see at the two keys of an object edit, across the edit and its inverse. -/
theorem ObjectEffect.eq_iff_isUndone {e : ObjectEffect} (hsound : e.IsSound ontology)
    (hbefore : s.objects.get? e.key = e.before) (hafter : s₁.objects.get? e.key = some e.after)
    (hinverts : e.Inverts ontology (s₁.objects.get? e.revertKey) (s₂.objects.get? e.revertKey))
    (hrevertible : (Effect.object e).IsRevertible s₁)
    (hkey : e.revertKey ≠ e.key → s₁.objects.get? e.revertKey = s.objects.get? e.revertKey ∧
      s₂.objects.get? e.key = s₁.objects.get? e.key) :
    (visibleObject s₂ e.key = visibleObject s e.key ∧
      visibleObject s₂ e.revertKey = visibleObject s e.revertKey) ↔ e.IsUndone ontology s := by
  obtain ⟨row, hrow, -, hdeleted⟩ := hrevertible
  cases hbefore' : e.before with
  | none =>
    have hsame := revertKey_eq_key_iff.mpr (hsound.of_before_none hbefore').1
    have hchange := before_eq_none_iff.mp hbefore'
    simp only [Inverts, hchange, hsame] at hinverts
    obtain ⟨_, row', -, hrow', hinvisible⟩ := hinverts
    rw [hsame, and_self, IsUndone, hchange, visibleObject_of_get? hrow', hinvisible, visibleObject,
      hbefore, hbefore']
    simp
  | some record =>
    obtain ⟨hisActive, hkeyEq, -⟩ := hsound.of_before hbefore'
    have hrevertKey : e.revertKey = { record.identity with indexVersion := activeIndexName } := by
      rw [revertKey_eq, hkeyEq]
    have hsame_iff : e.revertKey = e.key ↔ record.indexVersion = activeIndexName := by
      rw [revertKey_eq_key_iff, show e.after.indexVersion = e.key.indexVersion from rfl, hkeyEq]
      rfl
    rw [hbefore'] at hbefore
    obtain ⟨change, after⟩ := e
    cases change with
    | create => simp [before] at hbefore'
    | modify found patch =>
      obtain rfl : found = record := Option.some.inj hbefore'
      by_cases hactive : found.indexVersion = activeIndexName
      · rw [hsame_iff.mpr hactive, hafter] at hinverts hrow
        obtain rfl := Option.some.inj hrow
        rw [hsame_iff.mpr hactive, and_self]
        exact visibleObject_of_modify_same hsound hactive hbefore hinverts hdeleted
      · obtain ⟨hkept, hkept'⟩ := hkey fun hsame => hactive (hsame_iff.mp hsame)
        exact visibleObject_of_modify_other hsound hactive hrevertKey hbefore
          (hkept'.trans hafter) (hkept.symm.trans hrow) (hrow ▸ hinverts)
    | delete found =>
      obtain rfl : found = record := Option.some.inj hbefore'
      obtain ⟨row₁, row', hrow₁, hrow', hvisible, hedit, hproperties⟩ := hinverts
      obtain rfl := Option.some.inj (hrow₁.symm.trans hrow)
      have hfound : found.isVisible = !found.deleted := by
        rw [ObjectRecord.isVisible, hisActive, Bool.true_and]
      by_cases hactive : found.indexVersion = activeIndexName
      · have hsame := hsame_iff.mpr hactive
        rw [hsame] at hrow₁ hrow' ⊢
        obtain rfl := Option.some.inj (hafter.symm.trans hrow₁)
        obtain ⟨hedit', hproperties'⟩ := hsound.of_delete
        rw [and_self, visibleObject_of_get? hbefore, visibleObject_of_get? hrow', hfound, hvisible,
          hedit, hedit', hproperties, hproperties', IsUndone]
        cases hwas : found.deleted <;> simp [hactive, hwas]
      · obtain ⟨hkept, -⟩ := hkey fun hsame => hactive (hsame_iff.mp hsame)
        have hinvisible : row₁.isVisible = false := by
          rw [ObjectRecord.isVisible, show row₁.deleted = true from hdeleted]
          simp
        rw [visibleObject_of_get? hrow', hvisible, visibleObject_of_get? (hkept.symm.trans hrow₁),
          hinvisible, IsUndone]
        simp [hactive]

/-- **The objects are as they were if and only if every object edit is undone.** -/
theorem CheckedTrace.objects_iff (h : CheckedTrace ctx ontology actionRunId s steps s₁)
    (hreversal : Reversal ontology s₁ steps' s₂) (hperm : steps'.Perm steps) :
    visibleObject s₂ = visibleObject s ↔
      ∀ e ∈ steps.filterMap Step.object?, e.IsUndone ontology s := by
  have hpair := h.pairwise_revertKey
  have hmem {e : ObjectEffect} : e ∈ steps'.filterMap Step.object? ↔
      e ∈ steps.filterMap Step.object? := (hperm.filterMap _).mem_iff
  have hpair' : (steps'.filterMap Step.object?).Pairwise fun e e' => e.revertKey ≠ e'.revertKey :=
    ((hperm.filterMap _).pairwise_iff fun hne => hne.symm).mpr hpair
  have happart : ∀ e ∈ steps.filterMap Step.object?, ∀ e' ∈ steps.filterMap Step.object?,
      e = e' ∨ e.revertKey ≠ e'.revertKey := by
    intro e he e' he'
    have hsymm : Std.Symm fun e e' : ObjectEffect => e.revertKey ≠ e'.revertKey :=
      ⟨fun _ _ hne => hne.symm⟩
    by_cases heq : e = e'
    · exact .inl heq
    · exact .inr (hpair.forall he he' heq)
  have hlocal : ∀ e ∈ steps.filterMap Step.object?,
      (visibleObject s₂ e.key = visibleObject s e.key ∧
        visibleObject s₂ e.revertKey = visibleObject s e.revertKey) ↔ e.IsUndone ontology s := by
    intro e he
    obtain ⟨hsound, hbefore, hafter⟩ := h.trace.objects.of_pairwise
      (hpair.imp fun hne => (ObjectEffect.key_ne_of_revertKey_ne hne).1) he
    obtain ⟨step, hstep, hcase⟩ := List.mem_filterMap.mp he
    have hrevertible := h.revertible step hstep
    rw [Step.object?_eq_some_iff.mp hcase] at hrevertible
    refine ObjectEffect.eq_iff_isUndone hsound hbefore hafter
      (hreversal.objects.of_pairwise hpair' (hmem.mpr he)) hrevertible fun hne => ⟨?_, ?_⟩
    · refine h.trace.objects.apply_of_forall_ne fun e' he' => ?_
      rcases happart e' he' e he with rfl | hother
      · exact hne
      · exact (ObjectEffect.key_ne_of_revertKey_ne hother).2.symm
    · refine hreversal.objects.apply_of_forall_ne fun e' he' => ?_
      rcases happart e he e' (hmem.mp he') with rfl | hother
      · exact hne.symm
      · exact (ObjectEffect.key_ne_of_revertKey_ne hother).2
  constructor
  · intro heq e he
    exact (hlocal e he).mp ⟨congrFun heq e.key, congrFun heq e.revertKey⟩
  · intro hundone
    funext key
    by_cases hkey : ∃ e ∈ steps.filterMap Step.object?, e.key = key ∨ e.revertKey = key
    · obtain ⟨e, he, rfl | rfl⟩ := hkey
      · exact ((hlocal e he).mpr (hundone e he)).1
      · exact ((hlocal e he).mpr (hundone e he)).2
    · refine visibleObject_congr ?_
      rw [hreversal.objects.apply_of_forall_ne, h.trace.objects.apply_of_forall_ne]
      · rintro e he rfl
        exact hkey ⟨e, he, .inl rfl⟩
      · rintro e he rfl
        exact hkey ⟨e, hmem.mp he, .inr rfl⟩

/-- **The links are as they were if and only if every link edit is undone.** -/
theorem CheckedTrace.links_iff (h : CheckedTrace ctx ontology actionRunId s steps s₁)
    (hreversal : Reversal ontology s₁ steps' s₂) (hperm : steps'.Perm steps)
    (hends : (steps.filterMap Step.link?).Pairwise fun e e' => e.ends ≠ e'.ends) :
    visibleVersions s₂ = visibleVersions s ↔
      ∀ e ∈ steps.filterMap Step.link?, e.IsUndone s := by
  have hends' : ((steps'.filterMap Step.link?).map LinkEffect.inverse).Pairwise fun e e' =>
      e.ends ≠ e'.ends :=
    List.pairwise_map.mpr (((hperm.filterMap _).pairwise_iff fun hne => hne.symm).mpr hends)
  have hlocal : ∀ e ∈ steps.filterMap Step.link?,
      visibleVersions s₂ e.ends = visibleVersions s e.ends ↔ e.IsUndone s := by
    intro e he
    have he' : e.inverse ∈ (steps'.filterMap Step.link?).map LinkEffect.inverse :=
      List.mem_map_of_mem ((hperm.filterMap _).mem_iff.mpr he)
    exact LinkEffect.eq_iff_isUndone (h.trace.links.of_pairwise hends he)
      (hreversal.links.of_pairwise hends' he')
  constructor
  · intro heq e he
    exact (hlocal e he).mp (congrFun heq e.ends)
  · intro hundone
    funext ends
    by_cases hmem : ∃ e ∈ steps.filterMap Step.link?, e.ends = ends
    · obtain ⟨e, he, rfl⟩ := hmem
      exact (hlocal e he).mpr (hundone e he)
    · rw [hreversal.links.apply_of_forall_ne, h.trace.links.apply_of_forall_ne]
      · rintro e he rfl
        exact hmem ⟨e, he, rfl⟩
      · rintro inverse hinverse rfl
        obtain ⟨e, he, rfl⟩ := List.mem_map.mp hinverse
        exact hmem ⟨e, (hperm.filterMap _).mem_iff.mp he, rfl⟩

/-! ### The revert as a whole -/

/-- The links a run creates are pairwise different. -/
def CreatesApart (effects : List LinkEffect) : Prop :=
  effects.Pairwise fun e e' => e.isCreation = true → e'.isCreation = true → e.ends ≠ e'.ends

variable {env : Environment} {revertRunId : String}

/-- A reversal that went through created no link twice: the second time there would have been
nothing left to hide. -/
theorem CheckedTrace.createsApart_of_reversal
    (h : CheckedTrace ctx ontology actionRunId s steps s₁)
    (hreversal : Reversal ontology s₁ steps' s₂) (hperm : steps'.Perm steps) :
    CreatesApart (steps.filterMap Step.link?) := by
  have hmem {e : LinkEffect} : e ∈ steps'.filterMap Step.link? ↔ e ∈ steps.filterMap Step.link? :=
    (hperm.filterMap _).mem_iff
  have hkind : ∀ e ∈ (steps'.filterMap Step.link?).map LinkEffect.inverse,
      ∀ e' ∈ (steps'.filterMap Step.link?).map LinkEffect.inverse,
        e.ends = e'.ends → e.isCreation = e'.isCreation := by
    intro _ hinverse _ hinverse' hends
    obtain ⟨e, he, rfl⟩ := List.mem_map.mp hinverse
    obtain ⟨e', he', rfl⟩ := List.mem_map.mp hinverse'
    exact congrArg (!·) (h.isCreation_eq (hmem.mp he) (hmem.mp he') hends)
  have hapart := List.pairwise_map.mp (pairwise_ends_of_deletions hreversal.links hkind)
  refine ((hperm.filterMap _).pairwise_iff ?_).mp (hapart.imp fun hne hcreation hcreation' =>
    hne (by simp [LinkEffect.inverse, hcreation]) (by simp [LinkEffect.inverse, hcreation']))
  exact fun hne hcreation hcreation' hends => hne hcreation' hcreation hends.symm

/-- The inverse of every effect of a checked trace can be applied at first. -/
theorem CheckedTrace.isInvertible (h : CheckedTrace ctx ontology actionRunId s steps s₁)
    (hapart : CreatesApart (steps.filterMap Step.link?))
    (hundone : ∀ e ∈ steps.filterMap Step.link?, e.IsUndone s) {step : Step}
    (hstep : step ∈ steps) : step.effect.IsInvertible s₁ := by
  have hrevertible := h.revertible step hstep
  cases hcase : step.effect with
  | object e =>
    rw [hcase] at hrevertible
    exact hrevertible
  | link e =>
    rw [hcase] at hrevertible
    obtain ⟨hfrom, hto, hactive⟩ := hrevertible
    have he : e ∈ steps.filterMap Step.link? :=
      List.mem_filterMap.mpr ⟨step, hstep, Step.link?_eq_some_iff.mpr hcase⟩
    refine ⟨hfrom, hto, ?_⟩
    have hwrites := h.trace.links.of_pairwise (h.pairwise_ends hapart) he
    have hwas := hundone e he
    rw [LinkEffect.Writes] at hwrites
    rw [LinkEffect.IsUndone] at hwas
    split_ifs at hwrites hwas ⊢ with hkind
    · exact ⟨activeIndexName, hactive.trans hkind⟩
    · obtain ⟨⟨version, hvisible⟩, -⟩ := hwrites
      obtain rfl := hwas version hvisible
      exact h.trace.keepsLinks _ (Store.hasLink_of_isLinkVisible hvisible)

/-- **The inverses of a checked trace go through and restore what readers see if and only if every
edit is undone and no link is created twice**, in whatever order they are applied. -/
theorem CheckedTrace.exists_mapM_iff (h : CheckedTrace ctx ontology actionRunId s steps s₁)
    (hperm : steps'.Perm steps) (actorUserId : String) :
    (∃ committed s₂, (steps'.map Step.row).mapM
        (applyInverseEdit env ⟨ctx.tenantId, actorUserId⟩ ontology revertRunId) s₁
          = .ok (committed, s₂) ∧ SameVisibleState s s₂) ↔
      CreatesApart (steps.filterMap Step.link?) ∧
        (∀ e ∈ steps.filterMap Step.object?, e.IsUndone ontology s) ∧
        ∀ e ∈ steps.filterMap Step.link?, e.IsUndone s := by
  have hlogged : ∀ step ∈ steps', step.effect.IsLogged ⟨ctx.tenantId, actorUserId⟩ step.row := by
    intro step hstep
    exact (h.trace.logged (hperm.mem_iff.mp hstep)).1.of_tenantId_eq rfl
  have hsame {s₂ : Store} (hreversal : Reversal ontology s₁ steps' s₂)
      (hapart : CreatesApart (steps.filterMap Step.link?)) :
      SameVisibleState s s₂ ↔ (∀ e ∈ steps.filterMap Step.object?, e.IsUndone ontology s) ∧
        ∀ e ∈ steps.filterMap Step.link?, e.IsUndone s := by
    rw [← h.objects_iff hreversal hperm, ← h.links_iff hreversal hperm (h.pairwise_ends hapart)]
    exact ⟨fun h => ⟨h.objects, h.links⟩, fun h => ⟨h.1, h.2⟩⟩
  constructor
  · rintro ⟨committed, s₂, hrun, hstate⟩
    have hreversal := reversal_of_mapM hlogged hrun
    have hapart := h.createsApart_of_reversal hreversal hperm
    exact ⟨hapart, (hsame hreversal hapart).mp hstate⟩
  · rintro ⟨hapart, hundone⟩
    obtain ⟨committed, s₂, hrun⟩ : ∃ committed s₂, (steps'.mapM fun step =>
        applyInverseEdit env ⟨ctx.tenantId, actorUserId⟩ ontology revertRunId step.row) s₁
          = .ok (committed, s₂) := by
      let apart : Step → Step → Prop := fun step step' =>
        (∀ e, step.object? = some e → ∀ e', step'.object? = some e' → e.revertKey ≠ e'.revertKey) ∧
          ∀ e, step.link? = some e → ∀ e', step'.link? = some e' → e.ends ≠ e'.ends
      refine @Transaction.exists_mapM_eq_ok _ _ _ _ _ _ (fun step u => step.effect.IsInvertible u)
        apart _ ?_ ?_ ?_ ?_
      · intro step hstep u hinvertible
        exact exists_applyInverseEdit (hlogged step hstep)
          (fun e hcase => h.isSound (hperm.mem_iff.mp hstep) hcase) hinvertible
      · rintro step hstep step' - ⟨hobjects, hlinks⟩ u committed u' hinverse hinvertible
        refine hinvertible.of_isInverted (isInverted_of_applyInverseEdit (hlogged step hstep) hinverse)
          ?_ ?_
        · exact fun e he e' he' => hobjects e (Step.object?_eq_some_iff.mpr he) e'
            (Step.object?_eq_some_iff.mpr he')
        · exact fun e he e' he' => hlinks e (Step.link?_eq_some_iff.mpr he) e'
            (Step.link?_eq_some_iff.mpr he')
      · refine (hperm.pairwise_iff ?_).mpr ((List.pairwise_filterMap.mp h.pairwise_revertKey).and
          (List.pairwise_filterMap.mp (h.pairwise_ends hapart)))
        exact fun hne => ⟨fun e he e' he' => (hne.1 e' he' e he).symm,
          fun e he e' he' => (hne.2 e' he' e he).symm⟩
      · exact fun step hstep => h.isInvertible hapart hundone.2 (hperm.mem_iff.mp hstep)
    have hrun' := mapM_map_eq_ok_iff.mpr hrun
    exact ⟨committed, s₂, hrun', (hsame (reversal_of_mapM hlogged hrun') hapart).mpr hundone⟩

/-! ### The condition, in terms of the plan -/

/-- The link edit that a planned edit makes, once its link type is resolved. -/
def PlannedEdit.linkEffect? (ctx : RequestContext) (ontology : Ontology) :
    PlannedEdit → Option LinkEffect
  | .createLink link =>
    (ontology.linkType link.linkType).map fun row => ⟨linkEnds ctx row link, true⟩
  | .deleteLink link =>
    (ontology.linkType link.linkType).map fun row => ⟨linkEnds ctx row link, false⟩
  | .createObject _ | .modifyObject _ | .deleteObject _ => none

/-- When the revert of a plan restores what readers see. It is a condition on the plan and the
store before the commit. -/
structure IsReversible (ctx : RequestContext) (ontology : Ontology) (plan : EditPlan) (s : Store) :
    Prop where
  createsApart : CreatesApart (plan.plannedEdits.filterMap (PlannedEdit.linkEffect? ctx ontology))
  links : ∀ e ∈ plan.plannedEdits.filterMap (PlannedEdit.linkEffect? ctx ontology), e.IsUndone s
  modified : ∀ modify ∈ plan.objectsToModify, ∀ record,
    s.objectRecord (nameIn ctx (modify.objectType, modify.objectId)) = some record →
      IsModifyUndone ontology s record modify.patch
  deleted : ∀ delete ∈ plan.objectsToDelete, ∀ record,
    s.objectRecord (nameIn ctx (delete.objectType, delete.objectId)) = some record →
      record.indexVersion = activeIndexName ∧ record.deleted = false

namespace CheckedTrace

/-- The object that an edit found is the one its target names before the commit. -/
theorem objectRecord_of_before (h : CheckedTrace ctx ontology actionRunId s steps s₁) {step : Step}
    {e : ObjectEffect} {record : ObjectRecord} (hstep : step ∈ steps)
    (hcase : step.effect = .object e) (hbefore : e.before = some record) :
    ∃ target ∈ step.planned.target.map Prod.fst,
      s.objectRecord (nameIn ctx target) = some record := by
  obtain ⟨u, hrealises, hkept⟩ := h.trace.realises h.nodup_targets hstep
  rw [hcase] at hrealises
  obtain ⟨target, htarget, hfound⟩ := target_of_realises hrealises hbefore
  refine ⟨target, htarget, ?_⟩
  have hmem : e ∈ steps.filterMap Step.object? :=
    List.mem_filterMap.mpr ⟨step, hstep, Step.object?_eq_some_iff.mpr hcase⟩
  have hwrites := h.trace.objects.of_pairwise (h.pairwise_revertKey.imp fun hne =>
    (ObjectEffect.key_ne_of_revertKey_ne hne).1) hmem
  have hrow := (Table.get?_eq_some_iff.mp (hwrites.2.1.trans hbefore)).1
  have hactive := (hwrites.1.of_before hbefore).1
  -- the row is there and active, so the name finds some row, and the commit kept finding it
  have hsome : (s.objectRecord (nameIn ctx target)).isSome := by
    rw [Store.objectRecord, List.find?_isSome]
    exact ⟨record, hrow, by simp [(Store.objectRecord_eq_some hfound).2.1, hactive]⟩
  obtain ⟨found, hs⟩ := Option.isSome_iff_exists.mp hsome
  rw [hs, ← hfound, hkept target htarget found hs]

theorem linkEffect?_of_realises {u : Store} {step : Step}
    (h : step.effect.Realises ctx ontology u step.planned) :
    step.planned.linkEffect? ctx ontology = step.link? := by
  obtain ⟨planned, effect, row⟩ := step
  cases planned with
  | createObject _ | modifyObject _ | deleteObject _ =>
    cases effect with
    | object e => rfl
    | link e => exact h.elim
  | createLink l | deleteLink l =>
    cases effect with
    | object e => exact h.elim
    | link e =>
      obtain ⟨ends, isCreation⟩ := e
      obtain ⟨rfl, typeRow, htype, rfl⟩ := h
      simp [PlannedEdit.linkEffect?, Step.link?, htype]

theorem filterMap_linkEffect? (h : CheckedTrace ctx ontology actionRunId s steps s₁) :
    (steps.map Step.planned).filterMap (PlannedEdit.linkEffect? ctx ontology)
      = steps.filterMap Step.link? := by
  rw [List.filterMap_map]
  refine List.filterMap_congr fun step hstep => ?_
  obtain ⟨u, hrealises, -⟩ := h.trace.realises h.nodup_targets hstep
  exact linkEffect?_of_realises hrealises

/-- The plan modifies an object that is there exactly by a modification of the record found under
its name. -/
theorem exists_modify (h : CheckedTrace ctx ontology actionRunId s steps s₁) {modify : ObjectModify}
    (hplanned : PlannedEdit.modifyObject modify ∈ steps.map Step.planned) {record : ObjectRecord}
    (hfound : s.objectRecord (nameIn ctx (modify.objectType, modify.objectId)) = some record) :
    ∃ e ∈ steps.filterMap Step.object?, e.change = .modify record modify.patch := by
  obtain ⟨⟨planned, effect, row⟩, hstep, rfl⟩ := List.mem_map.mp hplanned
  obtain ⟨u, hrealises, hkept⟩ := h.trace.realises h.nodup_targets hstep
  have hu := hkept _ rfl record hfound
  cases effect with
  | link e => exact hrealises.elim
  | object e =>
    refine ⟨e, List.mem_filterMap.mpr ⟨_, hstep, rfl⟩, ?_⟩
    obtain ⟨change, after⟩ := e
    cases change with
    | create => exact absurd (hu.symm.trans hrealises) (Option.some_ne_none record)
    | modify found patch =>
      obtain ⟨hfound', rfl⟩ := hrealises
      obtain rfl := Option.some.inj (hu.symm.trans hfound')
      rfl
    | delete found => exact hrealises.elim

theorem exists_delete (h : CheckedTrace ctx ontology actionRunId s steps s₁) {delete : ObjectDelete}
    (hplanned : PlannedEdit.deleteObject delete ∈ steps.map Step.planned) {record : ObjectRecord}
    (hfound : s.objectRecord (nameIn ctx (delete.objectType, delete.objectId)) = some record) :
    ∃ e ∈ steps.filterMap Step.object?, e.change = .delete record := by
  obtain ⟨⟨planned, effect, row⟩, hstep, rfl⟩ := List.mem_map.mp hplanned
  obtain ⟨u, hrealises, hkept⟩ := h.trace.realises h.nodup_targets hstep
  have hu := hkept _ rfl record hfound
  cases effect with
  | link e => exact hrealises.elim
  | object e =>
    refine ⟨e, List.mem_filterMap.mpr ⟨_, hstep, rfl⟩, ?_⟩
    obtain ⟨change, after⟩ := e
    cases change with
    | create => exact hrealises.elim
    | modify found patch => exact hrealises.elim
    | delete found =>
      obtain rfl := Option.some.inj (hu.symm.trans hrealises)
      rfl

/-- The object edits are undone exactly when the plan's modifications and deletions are. -/
theorem isUndone_iff (h : CheckedTrace ctx ontology actionRunId s steps s₁) {plan : EditPlan}
    (hplan : steps.map Step.planned = plan.plannedEdits) :
    (∀ e ∈ steps.filterMap Step.object?, e.IsUndone ontology s) ↔
      (∀ modify ∈ plan.objectsToModify, ∀ record,
        s.objectRecord (nameIn ctx (modify.objectType, modify.objectId)) = some record →
          IsModifyUndone ontology s record modify.patch) ∧
      ∀ delete ∈ plan.objectsToDelete, ∀ record,
        s.objectRecord (nameIn ctx (delete.objectType, delete.objectId)) = some record →
          record.indexVersion = activeIndexName ∧ record.deleted = false := by
  constructor
  · intro hundone
    refine ⟨fun modify hmodify record hfound => ?_, fun delete hdelete record hfound => ?_⟩
    · obtain ⟨e, he, hchange⟩ := h.exists_modify
        (hplan ▸ by simp [EditPlan.plannedEdits, hmodify]) hfound
      simpa only [ObjectEffect.IsUndone, hchange] using hundone e he
    · obtain ⟨e, he, hchange⟩ := h.exists_delete
        (hplan ▸ by simp [EditPlan.plannedEdits, hdelete]) hfound
      simpa only [ObjectEffect.IsUndone, hchange] using hundone e he
  · rintro ⟨hmodified, hdeleted⟩ e he
    obtain ⟨step, hstep, hobject⟩ := List.mem_filterMap.mp he
    have hcase := Step.object?_eq_some_iff.mp hobject
    obtain ⟨u, hrealises, -⟩ := h.trace.realises h.nodup_targets hstep
    have hplanned : step.planned ∈ plan.plannedEdits := hplan ▸ List.mem_map_of_mem hstep
    rw [hcase] at hrealises
    obtain ⟨change, after⟩ := e
    cases change with
    | create => trivial
    | modify record patch =>
      obtain ⟨target, htarget, hfound⟩ := h.objectRecord_of_before hstep hcase rfl
      cases hedit : step.planned with
      | modifyObject m =>
        rw [hedit] at hrealises hplanned htarget
        obtain ⟨-, rfl⟩ := hrealises
        obtain rfl := Option.some.inj htarget
        exact hmodified m (by simpa [EditPlan.plannedEdits] using hplanned) record hfound
      | createObject _ | deleteObject _ | createLink _ | deleteLink _ =>
        rw [hedit] at hrealises
        exact hrealises.elim
    | delete record =>
      obtain ⟨target, htarget, hfound⟩ := h.objectRecord_of_before hstep hcase rfl
      cases hedit : step.planned with
      | deleteObject d =>
        rw [hedit] at hrealises hplanned htarget
        obtain rfl := Option.some.inj htarget
        exact hdeleted d (by simpa [EditPlan.plannedEdits] using hplanned) record hfound
      | createObject _ | modifyObject _ | createLink _ | deleteLink _ =>
        rw [hedit] at hrealises
        exact hrealises.elim

end CheckedTrace

/-! ### Commit followed by revert -/

/-- A revert of the run of a commit, by some user and with its own clock and ids. -/
structure RevertRequest where
  env : Environment
  actorUserId : String
  revertRunId : String

namespace RevertRequest

variable (request : RevertRequest) (call : CommitCall)

def context : RequestContext := ⟨call.ctx.tenantId, request.actorUserId⟩

/-- The checks of the revert pass. -/
def isEligible (s : Store) : Bool := isRevertEligible (request.context call) s call.actionRunId

/-- The inverse mutations. -/
def run : Tx (List CommittedEdit) :=
  revertEdits request.env (request.context call) call.ontology request.revertRunId call.actionRunId

/-- From the state after the commit, the revert goes through and restores what readers saw before
the commit. -/
def Restores (s s₁ : Store) : Prop :=
  ∃ committed s₂, request.run call s₁ = .ok (committed, s₂) ∧ SameVisibleState s s₂

end RevertRequest

/-- No edit of the run is logged before its commit: the id of a run is new when it is submitted. -/
def CommitCall.IsFresh (call : CommitCall) (s : Store) : Prop :=
  objectEditsForRun s call.ctx.tenantId call.actionRunId = []

variable {call : CommitCall} {request : RevertRequest} {result : ActionEditPlanResult}

/-- The logged edits of a fresh run are those of its trace, in some order. -/
theorem perm_objectEditsForRun (hfresh : call.IsFresh s)
    (htrace : Trace call.ctx call.ontology call.actionRunId s steps s₁) :
    (objectEditsForRun s₁ call.ctx.tenantId call.actionRunId).Perm (steps.map Step.row) := by
  refine (List.perm_insertionSort _ _).trans ?_
  have hnone := (List.perm_insertionSort logOrder _).symm.trans (List.Perm.of_eq hfresh)
  rw [htrace.edits, List.filter_append, hnone.eq_nil, List.nil_append,
    List.filter_eq_self.mpr]
  intro edit hedit
  obtain ⟨step, hstep, rfl⟩ := List.mem_map.mp hedit
  simpa using (htrace.logged hstep).2

/-- A commit whose revert is eligible has a checked trace. -/
theorem exists_checkedTrace (hfresh : call.IsFresh s) (hcommit : call.run s = .ok (result, s₁))
    (heligible : request.isEligible call s₁ = true) :
    ∃ steps, steps.map Step.planned = call.plan.plannedEdits ∧
      CheckedTrace call.ctx call.ontology call.actionRunId s steps s₁ := by
  obtain ⟨edits, t, hedits, hsame⟩ := commitPlan_eq_ok hcommit
  obtain ⟨steps, hplan, htrace⟩ := exists_trace hedits hsame
  refine ⟨steps, hplan, htrace, hplan ▸ nodup_targets_plannedEdits call.plan, ?_⟩
  intro step hstep
  obtain ⟨source, hsource, hblocker⟩ := Option.any_eq_true _ _ |>.mp heligible
  rw [Option.isNone_iff_eq_none, revertBlocker, Option.or_eq_none_iff, List.findSome?_eq_none_iff,
    id_of_revertSource hsource] at hblocker
  have hrow : step.row ∈ objectEditsForRun s₁ call.ctx.tenantId call.actionRunId :=
    (perm_objectEditsForRun hfresh htrace).mem_iff.mpr (List.mem_map_of_mem hstep)
  refine isRevertible_of_editBlocker ((htrace.logged hstep).1.of_tenantId_eq rfl)
    (fun e hcase => htrace.isSound hstep hcase) (hblocker.2 step.row hrow)

/-- **Commit and revert are inverse exactly for reversible plans.** -/
theorem restores_iff_isReversible (hfresh : call.IsFresh s)
    (hcommit : call.run s = .ok (result, s₁)) (heligible : request.isEligible call s₁ = true) :
    request.Restores call s s₁ ↔
      IsReversible call.ctx call.ontology call.plan.toEditPlan s := by
  obtain ⟨steps, hplan, h⟩ := exists_checkedTrace hfresh hcommit heligible
  have hperm := (List.reverse_perm _).trans (perm_objectEditsForRun hfresh h.trace)
  obtain ⟨steps', hrows, hperm⟩ := (congrFun₂ (List.eq_map_comp_perm Step.row) _ _).mpr hperm
  have hcore := @CheckedTrace.exists_mapM_iff _ _ _ _ _ _ _ request.env request.revertRunId h hperm
    request.actorUserId
  rw [← hrows, h.isUndone_iff hplan, ← h.filterMap_linkEffect?, hplan] at hcore
  have hrun : request.run call s₁
      = (objectEditsForRun s₁ call.ctx.tenantId call.actionRunId).reverse.mapM (applyInverseEdit
          request.env (request.context call) call.ontology request.revertRunId) s₁ := rfl
  rw [RevertRequest.Restores, hrun]
  refine hcore.trans ⟨fun hconds => ?_, fun hreversible => ?_⟩
  · obtain ⟨hapart, ⟨hmodified, hdeleted⟩, hlinks⟩ := hconds
    exact ⟨hapart, hlinks, hmodified, hdeleted⟩
  · exact ⟨hreversible.createsApart, ⟨hreversible.modified, hreversible.deleted⟩, hreversible.links⟩

/-! ### A link that was there before -/

section Knows

def personType : ObjectTypeId := ⟨⟨"ot_1", by decide⟩, ⟨"Person", by decide⟩⟩

def knowsType : LinkTypeRow := ⟨⟨"lt_1", by decide⟩, ⟨"knows", by decide⟩, personType, personType⟩

theorem apiName_of_no_objectType {apiName : String} {objectType : ObjectTypeId}
    (h : none = some objectType) : objectType.apiName.val = apiName := by simp at h

theorem apiName_of_knows {apiName : String} {linkType : LinkTypeRow}
    (h : (if apiName = "knows" then some knowsType else none) = some linkType) :
    linkType.apiName.val = apiName := by
  split_ifs at h with hname
  obtain rfl := Option.some.inj h
  exact hname.symm

def knowsOntology : Ontology where
  activeObjectType _ := none
  linkType apiName := if apiName = "knows" then some knowsType else none
  properties _ := []
  apiName_of_activeObjectType := @apiName_of_no_objectType
  apiName_of_linkType := @apiName_of_knows

/-- A clock that never stands still. -/
def knowsEnvironment : Environment where
  repr _ := ""
  digest _ := ""
  nowAt n := String.ofList (List.replicate n 'i')
  newIdAt _ := "0"

def knowsPlan : ValidEditPlan where
  linksToCreate := [⟨"op", "knows", "a", "b"⟩]
  isValid := by decide

def knowsCall (actionRunId : String) : CommitCall where
  env := knowsEnvironment
  ctx := ⟨"t", "u"⟩
  ontology := knowsOntology
  actionRunId
  plan := knowsPlan
  contract := some ⟨true⟩
  transition := actionRunSucceeded

def knowsRevert : RevertRequest := ⟨knowsEnvironment, "u", "run_3"⟩

/-- Two submitted runs, both with the plan to create one and the same link. -/
def submittedStore : Store :=
  { Store.empty with
    actionRuns := [⟨"run_1", "t", "u", .received, none⟩, ⟨"run_2", "t", "u", .received, none⟩] }

theorem restores_knows :
    knowsRevert.Restores (knowsCall "run_1") submittedStore
        (commitCalls [knowsCall "run_1"] submittedStore) ↔
      IsReversible ⟨"t", "u"⟩ knowsOntology knowsPlan.toEditPlan submittedStore := by
  obtain ⟨result, hcommit⟩ := Transaction.exists_eq_ok_of_isOk
    (x := (knowsCall "run_1").run) (s := submittedStore) (by decide)
  exact restores_iff_isReversible rfl hcommit (by decide)

/-- **A link that was there before is lost**: the second of two runs that create it is committed,
its revert is eligible and goes through, and the link that the first run created is gone. -/
theorem not_restores_knows :
    (∃ result, (knowsCall "run_2").run (commitCalls [knowsCall "run_1"] submittedStore)
      = .ok (result, commitCalls [knowsCall "run_1", knowsCall "run_2"] submittedStore)) ∧
    knowsRevert.isEligible (knowsCall "run_2")
      (commitCalls [knowsCall "run_1", knowsCall "run_2"] submittedStore) = true ∧
    ¬ knowsRevert.Restores (knowsCall "run_2") (commitCalls [knowsCall "run_1"] submittedStore)
      (commitCalls [knowsCall "run_1", knowsCall "run_2"] submittedStore) := by
  refine ⟨Transaction.exists_eq_ok_of_isOk (by decide), by decide, ?_⟩
  rintro ⟨committed, s₂, hrun, hsame⟩
  have hs₂ : s₂ = ((knowsRevert.run (knowsCall "run_2")).attempt
      (commitCalls [knowsCall "run_1", knowsCall "run_2"] submittedStore)).2 := by
    rw [Transaction.attempt_of_ok hrun]
  have hlink := congrFun (congrFun hsame.links ⟨"t", knowsType, "a", "b"⟩) activeIndexName
  rw [hs₂] at hlink
  revert hlink
  decide

end Knows

end FoundryLite.Actions
