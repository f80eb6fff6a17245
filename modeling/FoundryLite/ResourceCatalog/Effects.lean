import FoundryLite.ResourceCatalog.Mutations

/-!
# What a mutation of the catalog checked and wrote

One lemma for each check and each write, read backwards from its success. The folder and resource
tables are written by a few of them only; all others keep both.
-/

namespace FoundryLite.ResourceCatalog

open Transaction

variable {env : Environment} {call : Call} {ctx : RequestContext} {c c' : Catalog}

/-! ### Checks -/

/-- The project is there and the actor has at least the role in it. -/
def HasRole (c : Catalog) (ctx : RequestContext) (projectId : String) (minimum : ProjectRole) :
    Prop :=
  (c.projectById ctx.tenantId projectId).isSome ∧ minimum.rank ≤ rank (projectRole c ctx projectId)

/-- A folder that is named is an active folder of the project. -/
def ParentAllowed (c : Catalog) (ctx : RequestContext) (projectId : String)
    (folderId : Option String) : Prop :=
  ∀ id, folderId = some id → ∃ folder, c.folderById ctx.tenantId id = some folder ∧
    folder.projectId = projectId ∧ folder.status = .active

instance decidableHasRole (c : Catalog) (ctx : RequestContext) (projectId : String)
    (minimum : ProjectRole) : Decidable (HasRole c ctx projectId minimum) :=
  inferInstanceAs (Decidable (_ ∧ _))

theorem requireText_ok {value field cleaned : String}
    (h : requireText value field = .ok cleaned) : cleaned = Text.strip value := by
  simp only [requireText, Except.bind_eq_ok_iff, Except.pure_eq_ok_iff] at h
  obtain ⟨_, -, rfl⟩ := h
  rfl

theorem requireProject_ok {projectId : String} {minimum : ProjectRole} {project : ProjectRow}
    (h : requireProject ctx projectId minimum c = .ok (project, c')) :
    HasRole c ctx projectId minimum ∧ c' = c := by
  simp only [requireProject, requireProjectRole, bind_eq_ok_iff, get_eq_ok_iff,
    requireSome_eq_ok_iff, require_eq_ok_iff, pure_eq_ok_iff, Prod.mk.injEq,
    decide_eq_true_eq] at h
  obtain ⟨_, _, ⟨rfl, rfl⟩, row, _, ⟨_, hrow, rfl, rfl⟩, _, _, ⟨hrank, -, rfl⟩, -, rfl⟩ := h
  exact ⟨⟨by rw [hrow]; rfl, hrank⟩, rfl⟩

theorem requireParentFolder_ok {projectId : String} {folderId : Option String} {u : Unit}
    (h : requireParentFolder ctx projectId folderId c = .ok (u, c')) :
    ParentAllowed c ctx projectId folderId ∧ c' = c := by
  cases folderId with
  | none =>
    obtain ⟨-, rfl⟩ := Prod.mk.inj (pure_eq_ok_iff.mp h)
    exact ⟨nofun, rfl⟩
  | some id =>
    simp only [requireParentFolder, folderById, bind_eq_ok_iff, get_eq_ok_iff,
      requireSome_eq_ok_iff, require_eq_ok_iff, Prod.mk.injEq, Bool.and_eq_true,
      decide_eq_true_eq] at h
    obtain ⟨_, _, ⟨_, _, ⟨rfl, rfl⟩, folder, hfolder, rfl, rfl⟩, ⟨hproject, hstatus⟩, -, rfl⟩ := h
    refine ⟨fun id' heq => ?_, rfl⟩
    obtain rfl := Option.some.inj heq
    exact ⟨folder, hfolder, hproject, hstatus⟩

theorem projectFolder_ok {projectId folderId : String} {folder : FolderRow}
    (h : projectFolder ctx projectId folderId c = .ok (folder, c')) :
    c.folderById ctx.tenantId folderId = some folder ∧ folder.projectId = projectId ∧ c' = c := by
  simp only [projectFolder, folderById, bind_eq_ok_iff, get_eq_ok_iff, requireSome_eq_ok_iff,
    require_eq_ok_iff, pure_eq_ok_iff, Prod.mk.injEq, decide_eq_true_eq] at h
  obtain ⟨row, _, ⟨_, _, ⟨rfl, rfl⟩, _, hrow, rfl, rfl⟩, _, _, ⟨hproject, -, rfl⟩, rfl, rfl⟩ := h
  exact ⟨hrow, hproject, rfl⟩

theorem resourceByRid_ok {rid : String} {row : ResourceRow}
    (h : resourceByRid ctx rid c = .ok (row, c')) :
    c.resourceByRid ctx.tenantId rid = some row ∧ c' = c := by
  simp only [resourceByRid, bind_eq_ok_iff, get_eq_ok_iff, requireSome_eq_ok_iff,
    Prod.mk.injEq] at h
  obtain ⟨_, _, ⟨rfl, rfl⟩, _, hrow, rfl, rfl⟩ := h
  exact ⟨hrow, rfl⟩

/-- A folder that a lookup finds is stored, under the identifier and for the tenant asked for. -/
theorem folderById_eq_some {tenantId folderId : String} {folder : FolderRow}
    (h : c.folderById tenantId folderId = some folder) :
    folder ∈ c.folders.rows ∧ folder.tenantId = tenantId ∧ folder.id = folderId := by
  have hfound := List.find?_some h
  simp only [Bool.and_eq_true, decide_eq_true_eq] at hfound
  exact ⟨List.mem_of_find?_eq_some h, hfound.1, hfound.2⟩

theorem resourceByRid_eq_some {tenantId rid : String} {row : ResourceRow}
    (h : c.resourceByRid tenantId rid = some row) :
    row ∈ c.resources.rows ∧ row.tenantId = tenantId := by
  have hfound := List.find?_some h
  simp only [Bool.and_eq_true, decide_eq_true_eq] at hfound
  exact ⟨List.mem_of_find?_eq_some h, hfound.1⟩

/-! ### Writes outside the folder and resource tables -/

/-- The two tables that say where something is placed. -/
def places (c : Catalog) :
    Table FolderRow.id FolderRow.ridKey × Table ResourceRow.id ResourceRow.source :=
  (c.folders, c.resources)

theorem keeps_insertProject (row : ProjectRow) : Keeps places (insertProject row) := by
  refine Keeps.bind (Keeps.get.bind fun _ => Keeps.requireSome.bind fun _ => ?_) fun _ =>
    Keeps.get.bind fun _ => Keeps.requireSome
  exact Keeps.modify fun _ => rfl

theorem keeps_upsertProjectGrant (row : GrantRow) : Keeps places (upsertProjectGrant row) := by
  refine Keeps.get.bind fun c => Keeps.bind ?_ fun _ => Keeps.get.bind fun _ => Keeps.requireSome
  cases c.grants.get? row.principal with
  | none => exact Keeps.get.bind fun _ => Keeps.requireSome.bind fun _ => Keeps.modify fun _ => rfl
  | some existing => exact Keeps.modify fun _ => rfl

theorem keeps_newProject {displayName : String} {description : Option String}
    {metadata : Mapping} : Keeps places (newProject call displayName description metadata) :=
  (keeps_insertProject _).bind fun _ => (keeps_upsertProjectGrant _).bind fun _ => Keeps.pure _

theorem keeps_resourceProjectId {projectId : Option String} :
    Keeps places (resourceProjectId env call projectId) := by
  unfold resourceProjectId
  cases optionalText projectId with
  | some value => exact Keeps.pure _
  | none =>
    refine Keeps.get.bind fun c => ?_
    cases personalProject env c call.ctx with
    | some personal => exact Keeps.pure _
    | none => exact keeps_newProject.bind fun _ => Keeps.pure _

theorem keeps_requireProject {projectId : String} {minimum : ProjectRole} :
    Keeps places (requireProject ctx projectId minimum) :=
  Keeps.get.bind fun _ => Keeps.requireSome.bind fun _ => Keeps.require.bind fun _ => Keeps.pure _

theorem keeps_upsertGrant {projectId principalId : String} {principalType : PrincipalType}
    {role : ProjectRole} : Keeps places (do
      let principalId ← liftM (requireText principalId "principal_id")
      upsertGrantMutation call projectId principalType principalId role) :=
  Keeps.lift.bind fun _ => keeps_requireProject.bind fun _ =>
    (keeps_upsertProjectGrant _).bind fun _ => Keeps.pure _

theorem keeps_favoriteResourceMutation {rid : String} {shouldAdd : Bool} :
    Keeps places (favoriteResourceMutation env call rid shouldAdd) := by
  have hadd : ∀ resourceId, Keeps places
      (addFavorite env call.ctx.tenantId resourceId call.ctx.actorUserId call.now) := by
    refine fun resourceId => Keeps.get.bind fun c => ?_
    split
    · exact Keeps.modify fun _ => rfl
    · exact Keeps.require
  have hremove : ∀ resourceId,
      Keeps places (removeFavorite call.ctx.tenantId resourceId call.ctx.actorUserId) :=
    fun _ => Keeps.modify fun _ => rfl
  refine (Keeps.get.bind fun _ => Keeps.requireSome).bind fun row =>
    keeps_requireProject.bind fun _ => ?_
  cases shouldAdd with
  | true => exact (hadd _).bind fun _ => Keeps.pure _
  | false => exact (hremove _).bind fun _ => Keeps.pure _

/-! ### Writes to the folder and resource tables -/

theorem updateFolder_ok {tenantId folderId : String} {u : Table.Update FolderRow.id FolderRow.ridKey}
    {row : Option FolderRow} (h : updateFolder tenantId folderId u c = .ok (row, c')) :
    c' = { c with
      folders := c.folders.modify (fun row => row.tenantId = tenantId && row.id = folderId) u } := by
  simp only [updateFolder, bind_eq_ok_iff, modify_eq_ok_iff, get_eq_ok_iff, pure_eq_ok_iff,
    Prod.mk.injEq] at h
  obtain ⟨_, _, ⟨-, rfl⟩, _, _, ⟨rfl, rfl⟩, -, rfl⟩ := h
  rfl

theorem updateResource_ok {tenantId resourceId : String}
    {u : Table.Update ResourceRow.id ResourceRow.source} {row : Option ResourceRow}
    (h : updateResource tenantId resourceId u c = .ok (row, c')) :
    c' = { c with
      resources := c.resources.modify
        (fun row => row.tenantId = tenantId && row.id = resourceId) u } := by
  simp only [updateResource, bind_eq_ok_iff, modify_eq_ok_iff, get_eq_ok_iff, pure_eq_ok_iff,
    Prod.mk.injEq] at h
  obtain ⟨_, _, ⟨-, rfl⟩, _, _, ⟨rfl, rfl⟩, -, rfl⟩ := h
  rfl

theorem insertFolder_ok {record row : FolderRow} (h : insertFolder record c = .ok (row, c')) :
    ∃ folders, c.folders.insert? record = some folders ∧ c' = { c with folders } := by
  simp only [insertFolder, writeFolder, readBack, bind_eq_ok_iff, get_eq_ok_iff,
    requireSome_eq_ok_iff, modify_eq_ok_iff, Prod.mk.injEq] at h
  obtain ⟨_, _, ⟨_, _, ⟨rfl, rfl⟩, _, _, ⟨folders, hinsert, rfl, rfl⟩, -, rfl⟩, _, _, ⟨rfl, rfl⟩, _,
    -, -, rfl⟩ := h
  exact ⟨folders, hinsert, rfl⟩

/-- **An upsert inserts the record, or writes its placement over the resource that has its surface
and reference.** -/
theorem upsertResource_ok {record row : ResourceRow}
    (h : upsertResource record c = .ok (row, c')) :
    ∃ resources, c' = { c with resources } ∧
      (c.resourceBySource record.tenantId record.sourceSurface record.sourceRef = none ∧
          c.resources.insert? record = some resources ∨
        ∃ existing, c.resourceBySource record.tenantId record.sourceSurface record.sourceRef =
            some existing ∧
          resources = c.resources.updateRow existing.id (resourceUpsertUpdate record)) := by
  obtain ⟨_, _, hget, h⟩ := bind_eq_ok_iff.mp h
  obtain ⟨rfl, rfl⟩ := Prod.mk.inj (get_eq_ok_iff.mp hget)
  cases hfound : c.resourceBySource record.tenantId record.sourceSurface record.sourceRef with
  | none =>
    simp only [hfound, writeResource, readBack, bind_eq_ok_iff, get_eq_ok_iff, require_eq_ok_iff,
      requireSome_eq_ok_iff, modify_eq_ok_iff, Prod.mk.injEq] at h
    obtain ⟨_, _, ⟨_, _, ⟨rfl, rfl⟩, _, _, ⟨-, -, rfl⟩, _, _, ⟨rfl, rfl⟩, _, _,
      ⟨resources, hinsert, rfl, rfl⟩, -, rfl⟩, _, _, ⟨rfl, rfl⟩, _, -, -, rfl⟩ := h
    exact ⟨resources, rfl, .inl ⟨rfl, hinsert⟩⟩
  | some existing =>
    simp only [hfound, readBack, bind_eq_ok_iff, get_eq_ok_iff, requireSome_eq_ok_iff,
      modify_eq_ok_iff, Prod.mk.injEq] at h
    obtain ⟨_, _, ⟨-, rfl⟩, _, _, ⟨rfl, rfl⟩, _, -, -, rfl⟩ := h
    exact ⟨_, rfl, .inr ⟨existing, rfl, rfl⟩⟩

section Folders

variable {response : Mapping} {projectId folderId : String}

theorem createFolderMutation_resources {displayName : String} {parentFolderId : Option String}
    {metadata : Mapping} (hrun : createFolderMutation call projectId displayName parentFolderId
      metadata c = .ok (response, c')) : c'.resources = c.resources := by
  simp only [createFolderMutation, bind_eq_ok_iff, pure_eq_ok_iff, Prod.mk.injEq] at hrun
  obtain ⟨project, c₁, hproject, _, c₂, hparent, row, c₃, hinsert, -, rfl⟩ := hrun
  obtain ⟨-, rfl⟩ := requireProject_ok hproject
  obtain ⟨-, rfl⟩ := requireParentFolder_ok hparent
  obtain ⟨folders, -, rfl⟩ := insertFolder_ok hinsert
  rfl

theorem setFolderStatusMutation_ok {status : CatalogStatus}
    (hrun : setFolderStatusMutation call projectId folderId status c = .ok (response, c')) :
    c' = { c with
      folders := c.folders.modify
        (fun row => row.tenantId = call.ctx.tenantId && row.id = folderId)
        (folderStatusUpdate status call.now) } := by
  simp only [setFolderStatusMutation, bind_eq_ok_iff, pure_eq_ok_iff, requireSome_eq_ok_iff,
    Prod.mk.injEq] at hrun
  obtain ⟨project, c₁, hproject, folder, c₂, hfolder, row, c₃, hupdate, _, _, ⟨_, -, -, rfl⟩, -,
    rfl⟩ := hrun
  obtain ⟨-, rfl⟩ := requireProject_ok hproject
  obtain ⟨-, -, rfl⟩ := projectFolder_ok hfolder
  exact updateFolder_ok hupdate

/-- What a folder move that succeeded had checked, and what it wrote. -/
theorem moveFolderMutation_ok {parentFolderId : Option String}
    (hrun : moveFolderMutation call projectId folderId parentFolderId c = .ok (response, c')) :
    HasRole c call.ctx projectId .editor ∧
      (∃ folder, c.folderById call.ctx.tenantId folderId = some folder ∧
        folder.projectId = projectId) ∧
      ParentAllowed c call.ctx projectId parentFolderId ∧
      c' = { c with
        folders := c.folders.modify
          (fun row => row.tenantId = call.ctx.tenantId && row.id = folderId)
          (folderParentUpdate parentFolderId call.now) } := by
  simp only [moveFolderMutation, bind_eq_ok_iff, pure_eq_ok_iff,
    requireSome_eq_ok_iff, Prod.mk.injEq] at hrun
  obtain ⟨project, c₁, hproject, folder, c₂, hfolder, _, c₃, hparent, row, c₄, hupdate, _, _,
    ⟨_, -, -, rfl⟩, -, rfl⟩ := hrun
  obtain ⟨hrole, rfl⟩ := requireProject_ok hproject
  obtain ⟨hfound, hin, rfl⟩ := projectFolder_ok hfolder
  obtain ⟨hallowed, rfl⟩ := requireParentFolder_ok hparent
  exact ⟨hrole, ⟨folder, hfound, hin⟩, hallowed, updateFolder_ok hupdate⟩

end Folders

/-! ### Operations -/

/-- A request with a new key runs its writer; one with a known key changes nothing. -/
theorem runMutation_ok {idempotencyKey : String} {m : Mutation} {response : Mapping}
    (h : runMutation env call idempotencyKey m c = .ok (response, c')) :
    c' = c ∨ ∃ c₁ idempotency, m.writer c = .ok (response, c₁) ∧ c' = { c₁ with idempotency } := by
  obtain ⟨_, _, hget, h⟩ := bind_eq_ok_iff.mp h
  obtain ⟨rfl, rfl⟩ := Prod.mk.inj (get_eq_ok_iff.mp hget)
  cases hrecord : c.idempotencyRecord call.ctx.tenantId m.scope idempotencyKey with
  | some existing =>
    simp only [hrecord] at h
    obtain ⟨_, -, heq⟩ := lift_eq_ok_iff.mp h
    exact .inl (Prod.mk.inj heq).2.symm
  | none =>
    simp only [hrecord, storeIdempotencyRecord, bind_eq_ok_iff, get_eq_ok_iff, requireSome_eq_ok_iff,
      modify_eq_ok_iff, pure_eq_ok_iff, Prod.mk.injEq] at h
    obtain ⟨_, c₁, hwriter, _, _, ⟨_, _, ⟨rfl, rfl⟩, _, _, ⟨idempotency, -, rfl, rfl⟩, -, rfl⟩, rfl,
      rfl⟩ := h
    exact .inr ⟨c₁, idempotency, hwriter, rfl⟩

/-- What the catalog is after an operation: as before, or what a writer made of it. -/
theorem after_cases (env : Environment) (c : Catalog) (e : Event) :
    after env c e = c ∨
    (∃ key request m response c₁ idempotency, e.operation = .request key request ∧
      mutationOf env e.call request = .ok m ∧ m.writer c = .ok (response, c₁) ∧
      after env c e = { c₁ with idempotency }) ∨
    ∃ resource response, e.operation = .workProduct resource ∧
      upsertWorkProductResource env e.call resource c = .ok (response, after env c e) := by
  cases hrun : handle env e c with
  | error err => exact .inl (by rw [after, attempt_of_error hrun])
  | ok r =>
    obtain ⟨response, c'⟩ := r
    have hafter : after env c e = c' := by rw [after, attempt_of_ok hrun]
    rw [hafter]
    rw [handle] at hrun
    cases hop : e.operation with
    | request key request =>
      simp only [hop] at hrun
      obtain ⟨m, _, hm, hrun⟩ := bind_eq_ok_iff.mp hrun
      obtain ⟨_, hmut, heq⟩ := lift_eq_ok_iff.mp hm
      obtain ⟨rfl, rfl⟩ := Prod.mk.inj heq
      rcases runMutation_ok hrun with rfl | ⟨c₁, idempotency, hwriter, rfl⟩
      · exact .inl rfl
      · exact .inr (.inl ⟨key, request, _, response, c₁, idempotency, rfl, hmut, hwriter, rfl⟩)
    | workProduct resource =>
      simp only [hop] at hrun
      exact .inr (.inr ⟨resource, response, rfl, hrun⟩)

end FoundryLite.ResourceCatalog
