import FoundryLite.ResourceCatalog.Effects
import FoundryLite.Library.Acyclic
import FoundryLite.Library.Runs

/-!
# The folders of a project

Folders are meant to form a tree inside each project, with the resources of the project in it. Every
mutation checks that a folder it names belongs to the project, so parents and resources stay within
their project in every run. What no mutation checks is where a folder is moved to: a folder can be
given one of its own descendants, or itself, as its parent.

## Main results

* `isForest_of_run`: the catalog is a forest after every run that moves no folder below itself.
* `not_isForest`: a run that does.
-/

namespace FoundryLite.ResourceCatalog

open Relation Runs
open Transaction (bind_eq_ok_iff pure_eq_ok_iff requireSome_eq_ok_iff require_eq_ok_iff mapM_invariant)

variable {env : Environment} {call : Call} {c c' : Catalog}

/-! ### The invariant -/

/-- The folder with the one identifier has the other as its parent. -/
def ParentId (c : Catalog) (folderId parentId : String) : Prop :=
  ∃ folder ∈ c.folders.rows, folder.id = folderId ∧ folder.parentFolderId = some parentId

/-- A folder that is named is a folder of the project. -/
def InProject (c : Catalog) (tenantId projectId : String) (folderId : Option String) : Prop :=
  ∀ id, folderId = some id → ∃ folder ∈ c.folders.rows,
    folder.id = id ∧ folder.tenantId = tenantId ∧ folder.projectId = projectId

structure IsForest (c : Catalog) : Prop where
  acyclic : Acyclic (ParentId c)
  folders : ∀ row ∈ c.folders.rows, InProject c row.tenantId row.projectId row.parentFolderId
  resources : ∀ row ∈ c.resources.rows, InProject c row.tenantId row.projectId row.folderId

theorem isForest_empty : IsForest Catalog.empty where
  acyclic := acyclic_of_forall_not fun _ _ h => by simp [ParentId, Catalog.empty] at h
  folders := by simp [Catalog.empty]
  resources := by simp [Catalog.empty]

theorem IsForest.of_places (h : IsForest c) (hplaces : places c' = places c) : IsForest c' := by
  obtain ⟨hfolders, hresources⟩ := Prod.mk.inj hplaces
  have hin : InProject c' = InProject c := by
    unfold InProject
    rw [hfolders]
  have hparent : ParentId c' = ParentId c := by
    unfold ParentId
    rw [hfolders]
  constructor
  · rw [hparent]
    exact h.acyclic
  · rw [hin, hfolders]
    exact h.folders
  · rw [hin, hresources]
    exact h.resources

theorem ParentAllowed.inProject {ctx : RequestContext} {projectId : String}
    {folderId : Option String} (h : ParentAllowed c ctx projectId folderId) :
    InProject c ctx.tenantId projectId folderId := by
  intro id hid
  obtain ⟨folder, hfound, hproject, -⟩ := h id hid
  obtain ⟨hmem, htenant, hfid⟩ := folderById_eq_some hfound
  exact ⟨folder, hmem, hfid, htenant, hproject⟩

/-- Every folder is still there, in its project. -/
def FoldersPersist (c c' : Catalog) : Prop :=
  ∀ folder ∈ c.folders.rows, ∃ folder' ∈ c'.folders.rows, folder'.id = folder.id ∧
    folder'.tenantId = folder.tenantId ∧ folder'.projectId = folder.projectId

theorem InProject.mono {tenantId projectId : String} {folderId : Option String}
    (hpersist : FoldersPersist c c') (h : InProject c tenantId projectId folderId) :
    InProject c' tenantId projectId folderId := by
  intro id hid
  obtain ⟨folder, hmem, hfid, htenant, hproject⟩ := h id hid
  obtain ⟨folder', hmem', hid', htenant', hproject'⟩ := hpersist folder hmem
  exact ⟨folder', hmem', hid'.trans hfid, htenant'.trans htenant, hproject'.trans hproject⟩

/-! ### Folders -/

/-- A new folder below a folder of the project. -/
theorem IsForest.insertFolder (h : IsForest c) {record row : FolderRow}
    (hparent : InProject c record.tenantId record.projectId record.parentFolderId)
    (hinsert : ResourceCatalog.insertFolder record c = .ok (row, c')) : IsForest c' := by
  obtain ⟨folders, hfolders, rfl⟩ := insertFolder_ok hinsert
  have hrows := Table.rows_of_insert?_eq_some hfolders
  have hfresh : record.id ∉ c.folders.rows.map FolderRow.id :=
    (Table.insert?_isSome_iff.mp (by rw [hfolders]; rfl)).1
  have hpersist : FoldersPersist c { c with folders } := fun folder hmem =>
    ⟨folder, by simp [hrows, hmem], rfl, rfl, rfl⟩
  -- No folder has the new one as its parent, so no path leads back to it.
  have hno : ∀ a, ¬ ParentId c a record.id := by
    rintro a ⟨folder, hmem, -, heq⟩
    obtain ⟨g, hg, hgid, -⟩ := h.folders folder hmem _ heq
    exact hfresh (hgid ▸ List.mem_map_of_mem hg)
  refine ⟨?_, ?_, fun row hrow => (h.resources row hrow).mono hpersist⟩
  · cases hpar : record.parentFolderId with
    | none =>
      refine h.acyclic.mono ?_
      rintro a b ⟨folder, hmem, hid, heq⟩
      rcases List.mem_append.mp (hrows ▸ hmem) with hmem | hmem
      · exact ⟨folder, hmem, hid, heq⟩
      · rw [List.mem_singleton.mp hmem, hpar] at heq
        simp at heq
    | some parentId =>
      refine h.acyclic.redirect ?_ (n := record.id) (p := parentId) ?_
      · rintro a b ⟨folder, hmem, hid, heq⟩
        rcases List.mem_append.mp (hrows ▸ hmem) with hmem | hmem
        · exact .inl ⟨folder, hmem, hid, heq⟩
        · rw [List.mem_singleton.mp hmem] at hid heq
          exact .inr ⟨hid.symm, Option.some.inj (heq.symm.trans hpar)⟩
      · intro hpath
        rcases ReflTransGen.cases_tail hpath with heq | ⟨a, -, hedge⟩
        · obtain ⟨g, hg, hgid, -⟩ := hparent _ hpar
          exact hfresh (heq ▸ hgid ▸ List.mem_map_of_mem hg)
        · exact hno a hedge
  · intro folder hmem
    rcases List.mem_append.mp (hrows ▸ hmem) with hmem | hmem
    · exact (h.folders folder hmem).mono hpersist
    · rw [List.mem_singleton.mp hmem]
      exact hparent.mono hpersist

/-- An update of a folder that leaves it in its project. -/
structure FolderStays (u : Table.Update FolderRow.id FolderRow.ridKey) : Prop where
  tenant : ∀ row, (u.apply row).tenantId = row.tenantId
  project : ∀ row, (u.apply row).projectId = row.projectId

section Modify

variable {tenantId folderId : String} {u : Table.Update FolderRow.id FolderRow.ridKey}

/-- A row after an update is a row before it, updated if it is the one that was meant. -/
theorem mem_modify_folders {p : FolderRow → Bool} {folder : FolderRow}
    (h : folder ∈ (c.folders.modify p u).rows) :
    ∃ old ∈ c.folders.rows, folder = if p old then u.apply old else old := by
  obtain ⟨old, hold, rfl⟩ := List.mem_map.mp h
  exact ⟨old, hold, rfl⟩

theorem foldersPersist_modify (hu : FolderStays u) {p : FolderRow → Bool} :
    FoldersPersist c { c with folders := c.folders.modify p u } := by
  intro folder hmem
  refine ⟨if p folder then u.apply folder else folder, List.mem_map.mpr ⟨folder, hmem, rfl⟩, ?_⟩
  split_ifs
  · exact ⟨u.pk_apply folder, hu.tenant folder, hu.project folder⟩
  · exact ⟨rfl, rfl, rfl⟩

/-- An update that leaves the parents alone, such as a change of status. -/
theorem IsForest.modify_folders (h : IsForest c) (hu : FolderStays u) {p : FolderRow → Bool}
    (hparent : ∀ row, (u.apply row).parentFolderId = row.parentFolderId) :
    IsForest { c with folders := c.folders.modify p u } := by
  have hpersist : FoldersPersist c { c with folders := c.folders.modify p u } :=
    foldersPersist_modify hu
  refine ⟨h.acyclic.mono ?_, ?_, fun row hrow => (h.resources row hrow).mono hpersist⟩
  · rintro a b ⟨folder, hmem, rfl, heq⟩
    obtain ⟨old, hold, rfl⟩ := mem_modify_folders hmem
    refine ⟨old, hold, ?_, ?_⟩
    · split_ifs
      · exact (u.pk_apply old).symm
      · rfl
    · split_ifs at heq
      · exact (hparent old).symm.trans heq
      · exact heq
  · intro folder hmem
    obtain ⟨old, hold, rfl⟩ := mem_modify_folders hmem
    have hold' := (h.folders old hold).mono hpersist
    split_ifs
    · rw [hu.tenant, hu.project, hparent]
      exact hold'
    · exact hold'

/-- **Moving a folder keeps the forest**, if the new parent is of its project and not below it. -/
theorem IsForest.move_folder (h : IsForest c) {projectId now : String}
    {parentFolderId : Option String} {folder : FolderRow}
    (hfolder : c.folderById tenantId folderId = some folder) (hproject : folder.projectId = projectId)
    (hparent : InProject c tenantId projectId parentFolderId)
    (hbelow : ∀ id, parentFolderId = some id → ¬ ReflTransGen (ParentId c) id folderId) :
    IsForest { c with
      folders := c.folders.modify (fun row => row.tenantId = tenantId && row.id = folderId)
        (folderParentUpdate parentFolderId now) } := by
  have hstays : FolderStays (folderParentUpdate parentFolderId now) := ⟨fun _ => rfl, fun _ => rfl⟩
  have hpersist : FoldersPersist c { c with
      folders := c.folders.modify (fun row => row.tenantId = tenantId && row.id = folderId)
        (folderParentUpdate parentFolderId now) } := foldersPersist_modify hstays
  obtain ⟨hmem, htenant, hid⟩ := folderById_eq_some hfolder
  refine ⟨?_, ?_, fun row hrow => (h.resources row hrow).mono hpersist⟩
  · cases hpar : parentFolderId with
    | none =>
      refine h.acyclic.mono ?_
      rintro a b ⟨row, hrow, rfl, heq⟩
      obtain ⟨old, hold, rfl⟩ := mem_modify_folders hrow
      split_ifs at heq ⊢
      · simp [folderParentUpdate] at heq
      · exact ⟨old, hold, rfl, heq⟩
    | some parentId =>
      refine h.acyclic.redirect ?_ (n := folderId) (p := parentId) (hbelow parentId hpar)
      rintro a b ⟨row, hrow, rfl, heq⟩
      obtain ⟨old, hold, rfl⟩ := mem_modify_folders hrow
      split_ifs at heq ⊢ with hmeant
      · simp only [Bool.and_eq_true, decide_eq_true_eq] at hmeant
        exact .inr ⟨hmeant.2, (Option.some.inj heq).symm⟩
      · exact .inl ⟨old, hold, rfl, heq⟩
  · intro row hrow
    obtain ⟨old, hold, rfl⟩ := mem_modify_folders hrow
    split_ifs with hmeant
    · simp only [Bool.and_eq_true, decide_eq_true_eq] at hmeant
      obtain rfl := Table.eq_of_pk_eq hold hmem (hmeant.2.trans hid.symm)
      change InProject _ old.tenantId old.projectId parentFolderId
      rw [htenant, hproject]
      exact hparent.mono hpersist
    · exact (h.folders old hold).mono hpersist

end Modify

/-! ### Resources -/

/-- Resources that each stay placed or are placed in a folder of their project. -/
theorem IsForest.of_resources (h : IsForest c)
    {resources : Table ResourceRow.id ResourceRow.source}
    (hrows : ∀ row ∈ resources.rows, InProject c row.tenantId row.projectId row.folderId) :
    IsForest { c with resources } :=
  ⟨h.acyclic, h.folders, hrows⟩

theorem IsForest.upsertResource (h : IsForest c) {record row : ResourceRow}
    (hrecord : InProject c record.tenantId record.projectId record.folderId)
    (hupsert : ResourceCatalog.upsertResource record c = .ok (row, c')) :
    IsForest c' := by
  obtain ⟨resources, rfl, hresources⟩ := upsertResource_ok hupsert
  refine h.of_resources fun row hrow => ?_
  rcases hresources with ⟨-, hinsert⟩ | ⟨existing, hfound, rfl⟩
  · rcases List.mem_append.mp (Table.rows_of_insert?_eq_some hinsert ▸ hrow) with hrow | hrow
    · exact h.resources row hrow
    · rw [List.mem_singleton.mp hrow]
      exact hrecord
  · rw [Table.rows_updateRow] at hrow
    obtain ⟨old, hold, rfl⟩ := List.mem_map.mp hrow
    obtain ⟨hmem, hsource⟩ := Table.get?_eq_some_iff.mp hfound
    split_ifs with hid
    · -- The row that is written over is the tenant's own.
      obtain rfl := Table.eq_of_pk_eq hold hmem hid
      have htenant : old.tenantId = record.tenantId := congrArg Prod.fst hsource
      rw [← htenant] at hrecord
      exact hrecord
    · exact h.resources old hold

theorem IsForest.modify_resources (h : IsForest c) {p : ResourceRow → Bool}
    {u : Table.Update ResourceRow.id ResourceRow.source}
    (hu : ∀ row ∈ c.resources.rows, p row = true →
      InProject c (u.apply row).tenantId (u.apply row).projectId (u.apply row).folderId) :
    IsForest { c with resources := c.resources.modify p u } := by
  refine h.of_resources fun row hrow => ?_
  obtain ⟨old, hold, rfl⟩ := List.mem_map.mp hrow
  split_ifs with hp
  · exact hu old hold hp
  · exact h.resources old hold

/-! ### Writers -/

theorem folderStays_status {status : CatalogStatus} {now : String} :
    FolderStays (folderStatusUpdate status now) where
  tenant row := by
    simp only [folderStatusUpdate, Runtime.casStatusUpdate]
    split_ifs <;> rfl
  project row := by
    simp only [folderStatusUpdate, Runtime.casStatusUpdate]
    split_ifs <;> rfl

theorem parentFolderId_status {status : CatalogStatus} {now : String} (row : FolderRow) :
    ((folderStatusUpdate status now).apply row).parentFolderId = row.parentFolderId := by
  simp only [folderStatusUpdate, Runtime.casStatusUpdate]
  split_ifs <;> rfl

section Writers

variable {response : Mapping} {projectId folderId : String}

theorem IsForest.createFolder (h : IsForest c) {displayName : String}
    {parentFolderId : Option String} {metadata : Mapping}
    (hrun : createFolderMutation call projectId displayName parentFolderId metadata c =
      .ok (response, c')) : IsForest c' := by
  simp only [createFolderMutation, bind_eq_ok_iff, pure_eq_ok_iff,
    Prod.mk.injEq] at hrun
  obtain ⟨project, c₁, hproject, _, c₂, hparent, row, c₃, hinsert, -, rfl⟩ := hrun
  obtain ⟨-, rfl⟩ := requireProject_ok hproject
  obtain ⟨hallowed, rfl⟩ := requireParentFolder_ok hparent
  exact h.insertFolder hallowed.inProject hinsert

theorem IsForest.setFolderStatus (h : IsForest c) {status : CatalogStatus}
    (hrun : setFolderStatusMutation call projectId folderId status c = .ok (response, c')) :
    IsForest c' := by
  obtain rfl := setFolderStatusMutation_ok hrun
  exact h.modify_folders folderStays_status parentFolderId_status

theorem IsForest.registerResource (h : IsForest c) {resource : ResourceCandidate}
    {projectId folderId : Option String}
    (hrun : registerResourceMutation env call resource projectId folderId c =
      .ok (response, c')) : IsForest c' := by
  simp only [registerResourceMutation, bind_eq_ok_iff, pure_eq_ok_iff,
    Prod.mk.injEq] at hrun
  obtain ⟨target, c₁, htarget, project, c₂, hproject, _, c₃, hparent, row, c₄, hupsert, -, rfl⟩ :=
    hrun
  have h₁ : IsForest c₁ := h.of_places (keeps_resourceProjectId _ _ _ htarget)
  obtain ⟨-, rfl⟩ := requireProject_ok hproject
  obtain ⟨hallowed, rfl⟩ := requireParentFolder_ok hparent
  exact h₁.upsertResource hallowed.inProject hupsert

theorem IsForest.moveResource (h : IsForest c) {rid : String} {folderId : Option String}
    (hrun : moveResourceMutation call rid projectId folderId c = .ok (response, c')) :
    IsForest c' := by
  simp only [moveResourceMutation, bind_eq_ok_iff, pure_eq_ok_iff,
    requireSome_eq_ok_iff, Prod.mk.injEq] at hrun
  obtain ⟨before, c₁, hbefore, _, c₂, hsource, _, c₃, htarget, _, c₄, hparent, row, c₅, hupdate, _,
    _, ⟨_, -, -, rfl⟩, -, rfl⟩ := hrun
  obtain ⟨-, rfl⟩ := resourceByRid_ok hbefore
  obtain ⟨-, rfl⟩ := requireProject_ok hsource
  obtain ⟨-, rfl⟩ := requireProject_ok htarget
  obtain ⟨hallowed, rfl⟩ := requireParentFolder_ok hparent
  obtain rfl := updateResource_ok hupdate
  refine h.modify_resources fun row hrow hmeant => ?_
  simp only [Bool.and_eq_true, decide_eq_true_eq] at hmeant
  have hin := hallowed.inProject
  rw [← hmeant.1] at hin
  exact hin

theorem IsForest.setResourceStatus (h : IsForest c) {rid : String} {status : CatalogStatus}
    (hrun : setResourceStatusMutation call rid status c = .ok (response, c')) : IsForest c' := by
  simp only [setResourceStatusMutation, bind_eq_ok_iff, pure_eq_ok_iff,
    requireSome_eq_ok_iff, Prod.mk.injEq] at hrun
  obtain ⟨before, c₁, hbefore, _, c₂, hsource, row, c₃, hupdate, _, _, ⟨_, -, -, rfl⟩, -, rfl⟩ :=
    hrun
  obtain ⟨-, rfl⟩ := resourceByRid_ok hbefore
  obtain ⟨-, rfl⟩ := requireProject_ok hsource
  obtain rfl := updateResource_ok hupdate
  refine h.modify_resources fun row hrow _ => ?_
  have hin := h.resources row hrow
  simp only [resourceStatusUpdate, Runtime.casStatusUpdate]
  split_ifs
  · exact hin
  · exact hin

/-- Resources placed outside every folder, as a reconciliation places them. -/
theorem IsForest.upsertUnfiled (h : IsForest c) {n : Nat} {candidate : ResourceCandidate}
    {row : ResourceRow}
    (hupsert : ResourceCatalog.upsertResource (resourceRecord call n candidate projectId none) c =
      .ok (row, c')) : IsForest c' :=
  h.upsertResource (fun id hid => by simp [resourceRecord] at hid) hupsert

theorem IsForest.reconcile (h : IsForest c) {projectId : Option String}
    (hrun : reconcileMutation env call projectId c = .ok (response, c')) : IsForest c' := by
  simp only [reconcileMutation, bind_eq_ok_iff, pure_eq_ok_iff,
    require_eq_ok_iff, Prod.mk.injEq] at hrun
  obtain ⟨_, c₁, ⟨-, -, rfl⟩, target, c₂, htarget, rows, c₃, hrows, -, rfl⟩ := hrun
  have h₂ : IsForest c₂ := h.of_places (keeps_resourceProjectId _ _ _ htarget)
  exact mapM_invariant IsForest
    (fun candidate _ s row s' hrow hs => hs.upsertUnfiled hrow) hrows h₂

theorem IsForest.workProduct (h : IsForest c) {resource : ResourceCandidate}
    (hrun : upsertWorkProductResource env call resource c = .ok (response, c')) :
    IsForest c' := by
  simp only [upsertWorkProductResource, bind_eq_ok_iff, pure_eq_ok_iff,
    Prod.mk.injEq] at hrun
  obtain ⟨target, c₁, htarget, row, c₂, hupsert, -, rfl⟩ := hrun
  exact (h.of_places (keeps_resourceProjectId _ _ _ htarget)).upsertUnfiled hupsert

end Writers

/-! ### Runs -/

/-- A folder move that passes every check of the code, to a new parent that is the folder itself or
one of its descendants. -/
def MovesBelowItself (c : Catalog) (e : Event) : Prop :=
  ∃ key projectId folderId parentId,
    e.operation = .request key (.moveFolder projectId folderId (some parentId)) ∧
      HasRole c e.call.ctx projectId .editor ∧
      (∃ folder, c.folderById e.call.ctx.tenantId folderId = some folder ∧
        folder.projectId = projectId) ∧
      ParentAllowed c e.call.ctx projectId (some parentId) ∧
      ReflTransGen (ParentId c) parentId folderId

theorem IsForest.after (h : IsForest c) {e : Event} (hmove : ¬ MovesBelowItself c e) :
    IsForest (after env c e) := by
  rcases after_cases env c e with heq | ⟨key, request, m, response, c₁, idempotency, hop, hm, hrun,
    heq⟩ | ⟨resource, response, -, hrun⟩
  · rw [heq]
    exact h
  · rw [heq]
    refine IsForest.of_places (c := c₁) ?_ rfl
    cases request with
    | createProject displayName description metadata =>
      simp only [mutationOf, Except.bind_eq_ok_iff, Except.pure_eq_ok_iff] at hm
      obtain ⟨name, -, rfl⟩ := hm
      exact h.of_places
        ((Transaction.Keeps.bind keeps_newProject fun _ => .pure _) c response c₁ hrun)
    | upsertProjectGrant projectId principalType principalId role =>
      simp only [mutationOf, Except.bind_eq_ok_iff, Except.pure_eq_ok_iff] at hm
      obtain ⟨_, -, _, -, rfl⟩ := hm
      exact h.of_places (keeps_upsertGrant c response c₁ hrun)
    | createFolder projectId displayName parentFolderId metadata =>
      simp only [mutationOf, Except.bind_eq_ok_iff, Except.pure_eq_ok_iff] at hm
      obtain ⟨name, -, rfl⟩ := hm
      exact h.createFolder hrun
    | moveFolder projectId folderId parentFolderId =>
      obtain rfl := Except.pure_eq_ok_iff.mp hm
      obtain ⟨hrole, ⟨folder, hfolder, hproject⟩, hallowed, rfl⟩ := moveFolderMutation_ok hrun
      refine h.move_folder hfolder hproject hallowed.inProject fun parentId hparent hbelow => ?_
      subst hparent
      exact hmove ⟨key, projectId, folderId, parentId, hop, hrole, ⟨folder, hfolder, hproject⟩,
        hallowed, hbelow⟩
    | setFolderStatus projectId folderId status =>
      obtain rfl := Except.pure_eq_ok_iff.mp hm
      exact h.setFolderStatus hrun
    | registerResource resource projectId folderId =>
      simp only [mutationOf, Except.bind_eq_ok_iff, Except.pure_eq_ok_iff] at hm
      obtain ⟨_, -, _, -, _, -, _, -, rfl⟩ := hm
      exact h.registerResource hrun
    | moveResource rid projectId folderId =>
      obtain rfl := Except.pure_eq_ok_iff.mp hm
      exact h.moveResource hrun
    | setResourceStatus rid status =>
      obtain rfl := Except.pure_eq_ok_iff.mp hm
      exact h.setResourceStatus hrun
    | favoriteResource rid shouldAdd =>
      obtain rfl := Except.pure_eq_ok_iff.mp hm
      exact h.of_places (keeps_favoriteResourceMutation c response c₁ hrun)
    | reconcile projectId =>
      obtain rfl := Except.pure_eq_ok_iff.mp hm
      exact h.reconcile hrun
  · exact h.workProduct hrun

/-- **In every run in which no folder is moved below itself, the catalog is a forest.** -/
theorem isForest_of_run {history : List Event}
    (h : Run (next env) (fun c e => ¬ MovesBelowItself c e) Catalog.empty history c) :
    IsForest c := by
  refine h.invariant isForest_empty fun s e t hC hnext hs => ?_
  obtain rfl := Option.some.inj hnext
  exact hs.after hC

/-! ### A folder moved into itself -/

theorem length_zeroHex : "00000000000000000000000000000000".length = 32 := by
  decide +kernel

def zeroUuid : Uuid := ⟨"00000000000000000000000000000000", length_zeroHex⟩

theorem length_oneHex : "00000000000000000000000000000001".length = 32 := by
  decide +kernel

def oneUuid : Uuid := ⟨"00000000000000000000000000000001", length_oneHex⟩

/-- A database with one tenant's project at most, in which the order of projects does not matter. -/
def smallDatabase : Environment where
  survivesViolation := true
  orderProjects := id
  serialiser := ⟨fun _ => "", fun _ => ""⟩

/-- A call that draws the same identifier for one row of each table. -/
def callWith (uuid : Uuid) (ctx : RequestContext) : Call where
  ctx := ctx
  now := "2026-01-01T00:00:00Z"
  draws := ⟨uuid, uuid, uuid, uuid, uuid, fun _ => uuid, fun _ => uuid⟩
  candidates := []

def zeroProject : String := "project_00000000000000000000000000000000"

def zeroFolder : String := "folder_00000000000000000000000000000000"

def projectOwner : RequestContext := ⟨"tenant-demo", "user-owner", []⟩

/-- The owner makes a project with one folder and moves the folder, newest event first. -/
def moveOnlyFolder (parentFolderId : Option String) : List Event :=
  [⟨callWith zeroUuid projectOwner,
    .request "move" (.moveFolder zeroProject zeroFolder parentFolderId)⟩,
   ⟨callWith zeroUuid projectOwner,
    .request "folder" (.createFolder zeroProject "Reports" none [])⟩,
   ⟨callWith zeroUuid projectOwner, .request "project" (.createProject "Sales" none [])⟩]

def oneFolder : String := "folder_00000000000000000000000000000001"

/-- The owner makes a second folder, and moves it below the first. -/
def moveBelow : List Event :=
  ⟨callWith oneUuid projectOwner,
    .request "below" (.moveFolder zeroProject oneFolder (some zeroFolder))⟩ ::
  ⟨callWith oneUuid projectOwner, .request "drafts" (.createFolder zeroProject "Drafts" none [])⟩ ::
  (moveOnlyFolder none).tail

/-- Where no folder has a parent, a folder can be moved below any other. -/
theorem not_movesBelowItself {c : Catalog} {call : Call} {key projectId folderId parentId : String}
    (htop : (c.folders.rows.all fun row => decide (row.parentFolderId = none)) = true)
    (hne : parentId ≠ folderId) : ¬ MovesBelowItself c
      ⟨call, .request key (.moveFolder projectId folderId (some parentId))⟩ := by
  rintro ⟨_, _, _, _, ⟨⟩, -, -, -, hbelow⟩
  rcases hbelow.cases_head with heq | ⟨_, ⟨row, hrow, -, hparent⟩, -⟩
  · exact hne heq
  · simpa [hparent] using List.all_eq_true.mp htop row hrow

theorem isForest_moveBelow : ∃ c,
    Run (next smallDatabase) (fun c e => ¬ MovesBelowItself c e) Catalog.empty moveBelow c ∧
      (c.folders.rows.any fun row => row.parentFolderId = some zeroFolder) = true ∧
      IsForest c := by
  have hmade : Run (next smallDatabase) (fun c e => ¬ MovesBelowItself c e) Catalog.empty
      moveBelow.tail _ :=
    ((Run.start.step (by rintro ⟨_, _, _, _, ⟨⟩, -⟩) rfl).step
      (by rintro ⟨_, _, _, _, ⟨⟩, -⟩) rfl).step (by rintro ⟨_, _, _, _, ⟨⟩, -⟩) rfl
  have hrun : Run (next smallDatabase) (fun c e => ¬ MovesBelowItself c e) Catalog.empty
      moveBelow _ := hmade.step (not_movesBelowItself (by decide +kernel) (by decide)) rfl
  exact ⟨_, hrun, by decide +kernel, isForest_of_run hrun⟩

theorem movedIntoItself :
    ((replay (next smallDatabase) Catalog.empty (moveOnlyFolder (some zeroFolder))).any fun c =>
      c.folders.rows.any fun row => row.parentFolderId = some row.id) = true := by
  decide +kernel

/-- **The catalog is not a forest after a folder was moved into itself.** -/
theorem not_isForest : ∃ c,
    Run (next smallDatabase) Always Catalog.empty (moveOnlyFolder (some zeroFolder)) c ∧
      ¬ IsForest c := by
  obtain ⟨c, hreplay, hany⟩ := exists_replay_of_any movedIntoItself
  refine ⟨c, run_always_iff.mpr hreplay, fun h => ?_⟩
  obtain ⟨row, hrow, hself⟩ := List.any_eq_true.mp hany
  exact h.acyclic row.id (.single ⟨row, hrow, rfl, of_decide_eq_true hself⟩)

end FoundryLite.ResourceCatalog
