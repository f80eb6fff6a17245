import FoundryLite.ResourceCatalog.Forest

/-!
# Who may move a resource

A resource is placed in a project, and perhaps in a folder of it. An explicit move asks for an
editor of the project the resource leaves and of the one it enters. Registrations and
reconciliations write a placement too: they go by the surface and the reference of a resource, and
place it whether it is catalogued already or not. A registration asks for an editor of the project
entered only, a reconciliation for an administrator, who need not name a project that is there.

## Main results

* `movedWithAuthority_after`: what one operation has to meet for its moves to be authorised.
* `movedWithAuthority_of_run`: the same for every operation of a run.
* `not_movedWithAuthority`: an editor of one project pulls a resource out of another.
-/

namespace FoundryLite.ResourceCatalog

open Runs Transaction

variable {env : Environment} {call : Call} {ctx : RequestContext} {c c' c'' : Catalog}

/-- The project and the folder a resource is placed in. -/
def ResourceRow.placement (row : ResourceRow) : String × Option String :=
  (row.projectId, row.folderId)

/-- A catalogued resource changed its placement only if the actor was an editor of the project it
left, and is one of the project it entered. The project it entered may be the actor's own, made by
the operation. -/
def MovedWithAuthority (ctx : RequestContext) (c c' : Catalog) : Prop :=
  ∀ row ∈ c.resources.rows, ∀ row' ∈ c'.resources.rows, row'.id = row.id →
    row'.placement ≠ row.placement →
      HasRole c ctx row.projectId .editor ∧ HasRole c' ctx row'.projectId .editor

/-! ### Roles -/

theorem HasRole.congr {projectId : String} {minimum : ProjectRole}
    (hprojects : c'.projects = c.projects) (hgrants : c'.grants = c.grants) :
    HasRole c' ctx projectId minimum ↔ HasRole c ctx projectId minimum := by
  simp only [HasRole, projectRole, Catalog.projectById, Catalog.listProjectGrants, hprojects,
    hgrants]

theorem rank_le_rank_betterRole {best : Option ProjectRole} {grant : GrantRow} :
    rank best ≤ rank (betterRole ctx best grant) := by
  rw [betterRole]
  split_ifs with hbetter
  · simp only [Bool.and_eq_true, decide_eq_true_eq] at hbetter
    exact hbetter.2.le
  · exact le_rfl

theorem rank_le_rank_foldl {best : Option ProjectRole} {grants : List GrantRow} :
    rank best ≤ rank (grants.foldl (betterRole ctx) best) := by
  induction grants generalizing best with
  | nil => exact le_rfl
  | cons grant grants ih => exact rank_le_rank_betterRole.trans ih

/-- The best role is at least the one of any grant that matches. -/
theorem rank_le_rank_actorProjectRole {grants : List GrantRow} {grant : GrantRow}
    (hmem : grant ∈ grants) (hmatch : grantMatchesActor ctx grant = true) :
    grant.role.rank ≤ rank (actorProjectRole ctx grants) := by
  rw [actorProjectRole]
  split_ifs
  · cases grant.role <;> decide
  · obtain ⟨before, after, rfl⟩ := List.append_of_mem hmem
    rw [List.foldl_append, List.foldl_cons]
    refine le_trans ?_ rank_le_rank_foldl
    rw [betterRole]
    split_ifs with hbetter
    · exact le_rfl
    · simpa [hmatch] using hbetter

/-- An actor with a grant of the role in a project that is there. -/
theorem hasRole_of_grant {projectId : String} {minimum : ProjectRole} {grant : GrantRow}
    (hproject : (c.projectById ctx.tenantId projectId).isSome) (hmem : grant ∈ c.grants.rows)
    (htenant : grant.tenantId = ctx.tenantId) (hgrant : grant.projectId = projectId)
    (hmatch : grantMatchesActor ctx grant = true) (hrole : minimum.rank ≤ grant.role.rank) :
    HasRole c ctx projectId minimum := by
  refine ⟨hproject, hrole.trans (rank_le_rank_actorProjectRole ?_ hmatch)⟩
  exact List.mem_filter.mpr ⟨hmem, by simp [htenant, hgrant]⟩

theorem insertProject_ok {record row : ProjectRow}
    (h : insertProject record c = .ok (row, c')) :
    ∃ projects, c' = { c with projects } ∧ c'.projectById record.tenantId record.id = some row := by
  simp only [insertProject, writeProject, readBack, bind_eq_ok_iff, get_eq_ok_iff,
    requireSome_eq_ok_iff, modify_eq_ok_iff, Prod.mk.injEq] at h
  obtain ⟨_, _, ⟨_, _, ⟨rfl, rfl⟩, _, _, ⟨projects, -, rfl, rfl⟩, -, rfl⟩, _, _, ⟨rfl, rfl⟩, _,
    hfound, rfl, rfl⟩ := h
  exact ⟨projects, rfl, hfound⟩

/-- A grant is inserted, or its role is written over the grant of the principal. -/
theorem upsertProjectGrant_ok {record row : GrantRow}
    (h : upsertProjectGrant record c = .ok (row, c')) : ∃ grants, c' = { c with grants } ∧
      (c.grants.insert? record = some grants ∨ ∃ existing,
        c.grants.get? record.principal = some existing ∧ grants =
          c.grants.updateRow existing.id (grantUpdate record.role record.updatedAt)) := by
  simp only [upsertProjectGrant, readBack, bind_eq_ok_iff, get_eq_ok_iff, requireSome_eq_ok_iff,
    Prod.mk.injEq] at h
  obtain ⟨_, _, ⟨rfl, rfl⟩, _, _, hwrite, _, _, ⟨rfl, rfl⟩, _, -, -, rfl⟩ := h
  cases hfound : c.grants.get? record.principal with
  | none =>
    simp only [hfound, writeGrant, bind_eq_ok_iff, get_eq_ok_iff, requireSome_eq_ok_iff,
      modify_eq_ok_iff, Prod.mk.injEq] at hwrite
    obtain ⟨_, _, ⟨rfl, rfl⟩, _, _, ⟨grants, hinsert, rfl, rfl⟩, -, rfl⟩ := hwrite
    exact ⟨grants, rfl, .inl hinsert⟩
  | some existing =>
    simp only [hfound, writeGrant, modify_eq_ok_iff, Prod.mk.injEq] at hwrite
    obtain ⟨-, rfl⟩ := hwrite
    exact ⟨_, rfl, .inr ⟨existing, rfl, rfl⟩⟩

theorem exists_grant_of_upsert {record row : GrantRow}
    (h : upsertProjectGrant record c = .ok (row, c')) : ∃ grant ∈ c'.grants.rows,
      grant.principal = record.principal ∧ grant.role = record.role := by
  obtain ⟨grants, rfl, hinsert | ⟨existing, hfound, rfl⟩⟩ := upsertProjectGrant_ok h
  · exact ⟨record, by simp [Table.rows_of_insert?_eq_some hinsert], rfl, rfl⟩
  · obtain ⟨hmem, hkey⟩ := Table.get?_eq_some_iff.mp hfound
    refine ⟨(grantUpdate record.role record.updatedAt).apply existing, ?_, hkey, rfl⟩
    exact List.mem_map.mpr ⟨existing, hmem, by simp⟩

/-- The actor owns a project that the actor made. -/
theorem newProject_ok {displayName : String} {description : Option String} {metadata : Mapping}
    {row : ProjectRow} (h : newProject call displayName description metadata c = .ok (row, c')) :
    row.id = (projectRecord call displayName description metadata).id ∧
      HasRole c' call.ctx row.id .owner := by
  simp only [newProject, bind_eq_ok_iff, pure_eq_ok_iff, Prod.mk.injEq] at h
  obtain ⟨project, c₁, hinsert, _, c₂, hgrant, rfl, rfl⟩ := h
  obtain ⟨projects, rfl, hfound⟩ := insertProject_ok hinsert
  obtain ⟨grant, hmem, hprincipal, hrole⟩ := exists_grant_of_upsert hgrant
  obtain ⟨grants, rfl, -⟩ := upsertProjectGrant_ok hgrant
  have hid : project.id = (projectRecord call displayName description metadata).id := by
    have hpred := List.find?_some hfound
    simp only [Bool.and_eq_true, decide_eq_true_eq] at hpred
    exact hpred.2
  simp only [GrantRow.principal, Prod.mk.injEq] at hprincipal
  obtain ⟨htenant, hproject, htype, hactor⟩ := hprincipal
  refine ⟨hid, hasRole_of_grant ?_ hmem htenant hproject ?_ (by rw [hrole]; exact le_rfl)⟩
  · rw [hid]
    exact Option.isSome_iff_exists.mpr ⟨project, hfound⟩
  · rw [grantMatchesActor, htype]
    exact decide_eq_true hactor

/-! ### The project that a registration names -/

/-- The project named, or the personal project of the actor, if one is there. -/
def knownTarget (env : Environment) (c : Catalog) (ctx : RequestContext)
    (projectId : Option String) : Option String :=
  match optionalText projectId with
  | some value => some value
  | none => (personalProject env c ctx).map ProjectRow.id

/-- The project that a registration is for. -/
def targetProject (env : Environment) (c : Catalog) (call : Call) (projectId : Option String) :
    String :=
  (knownTarget env c call.ctx projectId).getD
    (projectRecord call s!"{call.ctx.actorUserId} Home" none [("kind", .str "personal")]).id

/-- The actor is an editor of the target, unless the target is still to be made. -/
def EditsTarget (env : Environment) (c : Catalog) (ctx : RequestContext)
    (projectId : Option String) : Prop :=
  ∀ target, knownTarget env c ctx projectId = some target → HasRole c ctx target .editor

theorem resourceProjectId_ok {projectId : Option String} {target : String}
    (h : resourceProjectId env call projectId c = .ok (target, c')) :
    target = targetProject env c call projectId ∧
      (EditsTarget env c call.ctx projectId → HasRole c' call.ctx target .editor) := by
  rw [resourceProjectId] at h
  cases hvalue : optionalText projectId with
  | some value =>
    simp only [hvalue, pure_eq_ok_iff, Prod.mk.injEq] at h
    obtain ⟨rfl, rfl⟩ := h
    exact ⟨by simp [targetProject, knownTarget, hvalue], fun hedits =>
      hedits value (by simp [knownTarget, hvalue])⟩
  | none =>
    simp only [hvalue] at h
    obtain ⟨_, _, hget, h⟩ := bind_eq_ok_iff.mp h
    obtain ⟨rfl, rfl⟩ := Prod.mk.inj (get_eq_ok_iff.mp hget)
    cases hpersonal : personalProject env c call.ctx with
    | some personal =>
      simp only [hpersonal, pure_eq_ok_iff, Prod.mk.injEq] at h
      obtain ⟨rfl, rfl⟩ := h
      exact ⟨by simp [targetProject, knownTarget, hvalue, hpersonal], fun hedits =>
        hedits personal.id (by simp [knownTarget, hvalue, hpersonal])⟩
    | none =>
      simp only [hpersonal] at h
      obtain ⟨project, c₁, hnew, hpure⟩ := bind_eq_ok_iff.mp h
      obtain ⟨rfl, rfl⟩ := Prod.mk.inj (pure_eq_ok_iff.mp hpure)
      obtain ⟨hid, hexists, howner⟩ := newProject_ok hnew
      refine ⟨?_, fun _ => ⟨hexists, le_trans (by decide) howner⟩⟩
      rw [hid]
      simp [targetProject, knownTarget, hvalue, hpersonal]

/-! ### Upserts -/

/-- Resources kept their places, but for some that are known by a source of the list and were
placed at `placed`. Projects and grants are untouched. -/
structure Places (sources : List (String × String × String)) (placed : String × Option String)
    (c c' : Catalog) : Prop where
  projects : c'.projects = c.projects
  grants : c'.grants = c.grants
  persist : ∀ row ∈ c.resources.rows, ∃ row' ∈ c'.resources.rows, row'.id = row.id
  rows : ∀ row ∈ c.resources.rows, ∀ row' ∈ c'.resources.rows, row'.id = row.id →
    row'.source = row.source ∧
      (row'.placement = row.placement ∨ row'.placement = placed ∧ row.source ∈ sources)

variable {sources : List (String × String × String)} {placed : String × Option String}

theorem Places.of_resources_eq (hprojects : c'.projects = c.projects) (hgrants : c'.grants = c.grants)
    (hresources : c'.resources = c.resources) : Places sources placed c c' where
  projects := hprojects
  grants := hgrants
  persist row hrow := ⟨row, by rwa [hresources], rfl⟩
  rows row hrow row' hrow' hid := by
    rw [hresources] at hrow'
    obtain rfl := Table.eq_of_pk_eq hrow' hrow hid
    exact ⟨rfl, .inl rfl⟩

theorem Places.trans (h : Places sources placed c c') (h' : Places sources placed c' c'') :
    Places sources placed c c'' where
  projects := h'.projects.trans h.projects
  grants := h'.grants.trans h.grants
  persist row hrow := by
    obtain ⟨row', hrow', hid⟩ := h.persist row hrow
    obtain ⟨row'', hrow'', hid'⟩ := h'.persist row' hrow'
    exact ⟨row'', hrow'', hid'.trans hid⟩
  rows row hrow row'' hrow'' hid := by
    obtain ⟨row', hrow', hid'⟩ := h.persist row hrow
    obtain ⟨hsource, hplace⟩ := h.rows row hrow row' hrow' hid'
    obtain ⟨hsource', hplace'⟩ := h'.rows row' hrow' row'' hrow'' (hid.trans hid'.symm)
    refine ⟨hsource'.trans hsource, ?_⟩
    rcases hplace' with hplace' | ⟨hplace', hmem⟩
    · rw [hplace']
      exact hplace
    · exact .inr ⟨hplace', hsource ▸ hmem⟩

/-- An update of some rows. -/
theorem Places.modify {p : ResourceRow → Bool} {u : Table.Update ResourceRow.id ResourceRow.source}
    (hu : ∀ row ∈ c.resources.rows, p row = true → (u.apply row).placement = row.placement ∨
      (u.apply row).placement = placed ∧ row.source ∈ sources) :
    Places sources placed c { c with resources := c.resources.modify p u } where
  projects := rfl
  grants := rfl
  persist row hrow := by
    refine ⟨_, List.mem_map.mpr ⟨row, hrow, rfl⟩, ?_⟩
    split_ifs
    · exact u.pk_apply row
    · rfl
  rows row hrow row' hrow' hid := by
    obtain ⟨old, hold, rfl⟩ := List.mem_map.mp hrow'
    have hpk : old.id = row.id := by
      split_ifs at hid
      · exact (u.pk_apply old).symm.trans hid
      · exact hid
    obtain rfl := Table.eq_of_pk_eq hold hrow hpk
    split_ifs with hp
    · exact ⟨u.uq_apply old, hu old hold hp⟩
    · exact ⟨rfl, .inl rfl⟩

/-- **An upsert places the resource that has the record's source, and no other.** -/
theorem Places.upsertResource {record row : ResourceRow} (hmem : record.source ∈ sources)
    (h : ResourceCatalog.upsertResource record c = .ok (row, c')) :
    Places sources record.placement c c' := by
  obtain ⟨resources, rfl, ⟨-, hinsert⟩ | ⟨existing, hfound, rfl⟩⟩ := upsertResource_ok h
  · have hrows := Table.rows_of_insert?_eq_some hinsert
    have hfresh : record.id ∉ c.resources.rows.map ResourceRow.id :=
      (Table.insert?_isSome_iff.mp (by rw [hinsert]; rfl)).1
    refine ⟨rfl, rfl, fun row hrow => ⟨row, by simp [hrows, hrow], rfl⟩, ?_⟩
    intro row hrow row' hrow' hid
    rcases List.mem_append.mp (hrows ▸ hrow') with hrow' | hrow'
    · obtain rfl := Table.eq_of_pk_eq hrow' hrow hid
      exact ⟨rfl, .inl rfl⟩
    · rw [List.mem_singleton.mp hrow'] at hid
      exact absurd (hid ▸ List.mem_map_of_mem hrow) hfresh
  · obtain ⟨hexisting, hsource⟩ := Table.get?_eq_some_iff.mp hfound
    refine Places.modify fun row hrow hid => .inr ⟨rfl, ?_⟩
    obtain rfl := Table.eq_of_pk_eq hrow hexisting (of_decide_eq_true hid)
    rw [hsource]
    exact hmem

/-! ### One operation -/

/-- Whoever places the resource of a source elsewhere is an editor of the project it is in. -/
def MayLeave (c : Catalog) (ctx : RequestContext) (sourceSurface sourceRef : String)
    (placed : String × Option String) : Prop :=
  ∀ row, c.resourceBySource ctx.tenantId sourceSurface sourceRef = some row →
    row.placement = placed ∨ HasRole c ctx row.projectId .editor

/-- What is checked of neither the target nor the source of a placement, for a work product. -/
def MayPlace (env : Environment) (c : Catalog) (call : Call) (projectId : Option String)
    (candidate : ResourceCandidate) : Prop :=
  ∀ row, c.resourceBySource call.ctx.tenantId candidate.sourceSurface candidate.sourceRef =
      some row → row.placement = (targetProject env c call projectId, none) ∨
    HasRole c call.ctx row.projectId .editor ∧ EditsTarget env c call.ctx projectId

/-- The check that registrations and reconciliations leave out: a resource that is catalogued
elsewhere is placed only by an editor of the project it is in (and, where the code does not check
it, of the project it is placed in). -/
def PlacementAuthorised (env : Environment) (c : Catalog) (e : Event) : Prop :=
  match e.operation with
  | .request _ (.registerResource resource projectId folderId) =>
    MayLeave c e.call.ctx (Text.strip resource.sourceSurface) (Text.strip resource.sourceRef)
      (targetProject env c e.call projectId, optionalText folderId)
  | .request _ (.reconcile projectId) =>
    ∀ candidate ∈ e.call.candidates, MayPlace env c e.call projectId candidate
  | .workProduct resource => MayPlace env c e.call none resource
  | _ => True

theorem MovedWithAuthority.of_places_eq (h : places c' = places c) :
    MovedWithAuthority ctx c c' := by
  intro row hrow row' hrow' hid hmoved
  rw [(Prod.mk.inj h).2] at hrow'
  obtain rfl := Table.eq_of_pk_eq hrow' hrow hid
  exact absurd rfl hmoved

theorem MovedWithAuthority.of_resources_eq (h : c'.resources = c.resources) :
    MovedWithAuthority ctx c c' := by
  intro row hrow row' hrow' hid hmoved
  rw [h] at hrow'
  obtain rfl := Table.eq_of_pk_eq hrow' hrow hid
  exact absurd rfl hmoved

/-- Idempotency records say nothing about places. -/
theorem MovedWithAuthority.idempotency {idempotency} (h : MovedWithAuthority ctx c c') :
    MovedWithAuthority ctx c { c' with idempotency } := h

/-- Placements with the authority for each of the sources. -/
theorem Places.movedWithAuthority {c₁ : Catalog} (h : Places sources placed c₁ c')
    (hresources : c₁.resources = c.resources)
    (hauthority : ∀ row ∈ c.resources.rows, row.source ∈ sources → row.placement = placed ∨
      HasRole c ctx row.projectId .editor ∧ HasRole c₁ ctx placed.1 .editor) :
    MovedWithAuthority ctx c c' := by
  intro row hrow row' hrow' hid hmoved
  obtain ⟨-, hplace | ⟨hplace, hmem⟩⟩ := h.rows row (hresources ▸ hrow) row' hrow' hid
  · exact absurd hplace hmoved
  · rcases hauthority row hrow hmem with hsame | ⟨hleaves, henters⟩
    · exact absurd (hplace.trans hsame.symm) hmoved
    · have hproject : row'.projectId = placed.1 := congrArg Prod.fst hplace
      rw [hproject, HasRole.congr h.projects h.grants]
      exact ⟨hleaves, henters⟩

theorem resourceBySource_of_source_eq {row : ResourceRow} {tenantId sourceSurface sourceRef : String}
    (hrow : row ∈ c.resources.rows) (hsource : row.source = (tenantId, sourceSurface, sourceRef)) :
    c.resourceBySource tenantId sourceSurface sourceRef = some row :=
  Table.get?_eq_some_iff.mpr ⟨hrow, hsource⟩

section Writers

variable {response : Mapping}

theorem movedWithAuthority_registerResource {resource : ResourceCandidate}
    {projectId folderId : Option String}
    (hleave : MayLeave c call.ctx resource.sourceSurface resource.sourceRef
      (targetProject env c call projectId, optionalText folderId))
    (hrun : registerResourceMutation env call resource projectId folderId c =
      .ok (response, c')) : MovedWithAuthority call.ctx c c' := by
  simp only [registerResourceMutation, bind_eq_ok_iff, pure_eq_ok_iff, Prod.mk.injEq] at hrun
  obtain ⟨target, c₁, htarget, project, c₂, hproject, _, c₃, hparent, row, c₄, hupsert, -, rfl⟩ :=
    hrun
  have hplaces := keeps_resourceProjectId _ _ _ htarget
  obtain ⟨rfl, -⟩ := resourceProjectId_ok htarget
  obtain ⟨hrole, rfl⟩ := requireProject_ok hproject
  obtain ⟨-, rfl⟩ := requireParentFolder_ok hparent
  refine (Places.upsertResource (List.mem_singleton_self _) hupsert).movedWithAuthority
    (Prod.mk.inj hplaces).2 fun row hrow hmem => ?_
  rcases hleave row (resourceBySource_of_source_eq hrow (List.mem_singleton.mp hmem)) with
    hsame | hedits
  · exact .inl hsame
  · exact .inr ⟨hedits, hrole⟩

theorem movedWithAuthority_moveResource {rid projectId : String} {folderId : Option String}
    (hrun : moveResourceMutation call rid projectId folderId c = .ok (response, c')) :
    MovedWithAuthority call.ctx c c' := by
  simp only [moveResourceMutation, bind_eq_ok_iff, pure_eq_ok_iff, requireSome_eq_ok_iff,
    Prod.mk.injEq] at hrun
  obtain ⟨before, c₁, hbefore, _, c₂, hsource, _, c₃, htarget, _, c₄, hparent, row, c₅, hupdate, _,
    _, ⟨_, -, -, rfl⟩, -, rfl⟩ := hrun
  obtain ⟨hfound, rfl⟩ := resourceByRid_ok hbefore
  obtain ⟨hleaves, rfl⟩ := requireProject_ok hsource
  obtain ⟨henters, rfl⟩ := requireProject_ok htarget
  obtain ⟨-, rfl⟩ := requireParentFolder_ok hparent
  obtain rfl := updateResource_ok hupdate
  obtain ⟨hmem, -⟩ := resourceByRid_eq_some hfound
  have hplaces : Places [before.source] (projectId, folderId) c₄ _ :=
    Places.modify (p := fun row => row.tenantId = call.ctx.tenantId && row.id = before.id)
      (u := resourcePlacementUpdate projectId folderId call.now) fun row hrow hmeant => by
        simp only [Bool.and_eq_true, decide_eq_true_eq] at hmeant
        obtain rfl := Table.eq_of_pk_eq hrow hmem hmeant.2
        exact .inr ⟨rfl, List.mem_singleton_self _⟩
  refine hplaces.movedWithAuthority rfl fun row hrow hsource => .inr ?_
  obtain rfl := Table.eq_of_uq_eq hrow hmem (List.mem_singleton.mp hsource)
  exact ⟨hleaves, henters⟩

theorem movedWithAuthority_setResourceStatus {rid : String} {status : CatalogStatus}
    (hrun : setResourceStatusMutation call rid status c = .ok (response, c')) :
    MovedWithAuthority call.ctx c c' := by
  simp only [setResourceStatusMutation, bind_eq_ok_iff, pure_eq_ok_iff, requireSome_eq_ok_iff,
    Prod.mk.injEq] at hrun
  obtain ⟨before, c₁, hbefore, _, c₂, hsource, row, c₃, hupdate, _, _, ⟨_, -, -, rfl⟩, -, rfl⟩ :=
    hrun
  obtain ⟨-, rfl⟩ := resourceByRid_ok hbefore
  obtain ⟨-, rfl⟩ := requireProject_ok hsource
  obtain rfl := updateResource_ok hupdate
  have hplaces : Places [] ("", none) c₂ _ :=
    Places.modify (p := fun row => row.tenantId = call.ctx.tenantId && row.id = before.id)
      (u := resourceStatusUpdate status call.now) fun row _ _ => by
        simp only [resourceStatusUpdate, Runtime.casStatusUpdate]
        split_ifs
        · exact .inl rfl
        · exact .inl rfl
  exact hplaces.movedWithAuthority rfl fun row _ hmem => absurd hmem List.not_mem_nil

theorem movedWithAuthority_workProduct {resource : ResourceCandidate}
    (hplace : MayPlace env c call none resource)
    (hrun : upsertWorkProductResource env call resource c = .ok (response, c')) :
    MovedWithAuthority call.ctx c c' := by
  simp only [upsertWorkProductResource, bind_eq_ok_iff, pure_eq_ok_iff, Prod.mk.injEq] at hrun
  obtain ⟨target, c₁, htarget, row, c₂, hupsert, -, rfl⟩ := hrun
  have hplaces := keeps_resourceProjectId _ _ _ htarget
  obtain ⟨rfl, henters⟩ := resourceProjectId_ok htarget
  refine (Places.upsertResource (List.mem_singleton_self _) hupsert).movedWithAuthority
    (Prod.mk.inj hplaces).2 fun row hrow hmem => ?_
  rcases hplace row (resourceBySource_of_source_eq hrow (List.mem_singleton.mp hmem)) with
    hsame | ⟨hleaves, hedits⟩
  · exact .inl hsame
  · exact .inr ⟨hleaves, henters hedits⟩

theorem movedWithAuthority_reconcile {projectId : Option String}
    (hplace : ∀ candidate ∈ call.candidates, MayPlace env c call projectId candidate)
    (hrun : reconcileMutation env call projectId c = .ok (response, c')) :
    MovedWithAuthority call.ctx c c' := by
  simp only [reconcileMutation, bind_eq_ok_iff, pure_eq_ok_iff, require_eq_ok_iff,
    Prod.mk.injEq] at hrun
  obtain ⟨_, c₁, ⟨-, -, rfl⟩, target, c₂, htarget, rows, c₃, hrows, -, rfl⟩ := hrun
  have hresources := (Prod.mk.inj (keeps_resourceProjectId _ _ _ htarget)).2
  obtain ⟨rfl, henters⟩ := resourceProjectId_ok htarget
  let sources := call.candidates.map fun candidate =>
    (call.ctx.tenantId, candidate.sourceSurface, candidate.sourceRef)
  have hplaces : Places sources (targetProject env c call projectId, none) c₂ c₃ := by
    refine mapM_relates (Places sources (targetProject env c call projectId, none))
      (fun s => Places.of_resources_eq rfl rfl rfl) (fun _ _ _ => Places.trans) ?_ hrows
    intro candidate hcandidate s row s' hrow
    refine Places.upsertResource (List.mem_map.mpr ⟨candidate.1, ?_, rfl⟩) hrow
    exact List.fst_mem_of_mem_zipIdx hcandidate
  refine hplaces.movedWithAuthority hresources fun row hrow hmem => ?_
  obtain ⟨candidate, hcandidate, hsource⟩ := List.mem_map.mp hmem
  rcases hplace candidate hcandidate row (resourceBySource_of_source_eq hrow hsource.symm) with
    hsame | ⟨hleaves, hedits⟩
  · exact .inl hsame
  · exact .inr ⟨hleaves, henters hedits⟩

end Writers

/-- **An operation that meets the condition moves resources with authority only.** -/
theorem movedWithAuthority_after {e : Event} (h : PlacementAuthorised env c e) :
    MovedWithAuthority e.call.ctx c (after env c e) := by
  rcases after_cases env c e with heq | ⟨key, request, m, response, c₁, idempotency, hop, hm, hrun,
    heq⟩ | ⟨resource, response, hop, hrun⟩
  · exact .of_resources_eq (by rw [heq])
  · rw [heq]
    refine MovedWithAuthority.idempotency ?_
    cases request with
    | createProject displayName description metadata =>
      simp only [mutationOf, Except.bind_eq_ok_iff, Except.pure_eq_ok_iff] at hm
      obtain ⟨name, -, rfl⟩ := hm
      exact .of_places_eq ((Keeps.bind keeps_newProject fun _ => .pure _) c response c₁ hrun)
    | upsertProjectGrant projectId principalType principalId role =>
      simp only [mutationOf, Except.bind_eq_ok_iff, Except.pure_eq_ok_iff] at hm
      obtain ⟨_, -, _, -, rfl⟩ := hm
      exact .of_places_eq (keeps_upsertGrant c response c₁ hrun)
    | createFolder projectId displayName parentFolderId metadata =>
      simp only [mutationOf, Except.bind_eq_ok_iff, Except.pure_eq_ok_iff] at hm
      obtain ⟨name, -, rfl⟩ := hm
      exact .of_resources_eq (createFolderMutation_resources hrun)
    | moveFolder projectId folderId parentFolderId =>
      obtain rfl := Except.pure_eq_ok_iff.mp hm
      obtain ⟨-, -, -, rfl⟩ := moveFolderMutation_ok hrun
      exact .of_resources_eq rfl
    | setFolderStatus projectId folderId status =>
      obtain rfl := Except.pure_eq_ok_iff.mp hm
      obtain rfl := setFolderStatusMutation_ok hrun
      exact .of_resources_eq rfl
    | registerResource resource projectId folderId =>
      simp only [mutationOf, Except.bind_eq_ok_iff, Except.pure_eq_ok_iff] at hm
      obtain ⟨_, -, _, -, sourceSurface, hsurface, sourceRef, href, rfl⟩ := hm
      obtain rfl := requireText_ok hsurface
      obtain rfl := requireText_ok href
      simp only [PlacementAuthorised, hop] at h
      refine movedWithAuthority_registerResource ?_ hrun
      exact h
    | moveResource rid projectId folderId =>
      obtain rfl := Except.pure_eq_ok_iff.mp hm
      exact movedWithAuthority_moveResource hrun
    | setResourceStatus rid status =>
      obtain rfl := Except.pure_eq_ok_iff.mp hm
      exact movedWithAuthority_setResourceStatus hrun
    | favoriteResource rid shouldAdd =>
      obtain rfl := Except.pure_eq_ok_iff.mp hm
      exact .of_places_eq (keeps_favoriteResourceMutation c response c₁ hrun)
    | reconcile projectId =>
      obtain rfl := Except.pure_eq_ok_iff.mp hm
      simp only [PlacementAuthorised, hop] at h
      exact movedWithAuthority_reconcile h hrun
  · simp only [PlacementAuthorised, hop] at h
    exact movedWithAuthority_workProduct h hrun

/-! ### Runs -/

/-- **In every run whose operations all meet the condition, every move of a resource is made with
authority over the project it leaves and the project it enters.** -/
theorem movedWithAuthority_of_run {later earlier : List Event} {e : Event}
    (h : Run (next env) (PlacementAuthorised env) Catalog.empty (later ++ e :: earlier) c) :
    ∃ u, Run (next env) (PlacementAuthorised env) Catalog.empty earlier u ∧
      MovedWithAuthority e.call.ctx u (after env u e) := by
  obtain ⟨t, hrun, -⟩ := run_append_iff.mp h
  obtain ⟨u, hearlier, hC, -⟩ := run_cons_iff.mp hrun
  exact ⟨u, hearlier, movedWithAuthority_after hC⟩

/-! ### A resource registered again -/

def oneProject : String := "project_00000000000000000000000000000001"

def otherOwner : RequestContext := ⟨"tenant-demo", "user-other", []⟩

def ordersDataset : ResourceCandidate :=
  ⟨"dataset", "Orders", "dataset", "sales.orders", none, []⟩

/-- The owner of a first project catalogues a dataset there, and somebody makes a second project;
newest event first. -/
def catalogued (second : RequestContext) : List Event :=
  [⟨callWith oneUuid second, .request "second" (.createProject "Finance" none [])⟩,
   ⟨callWith zeroUuid projectOwner,
    .request "register" (.registerResource ordersDataset (some zeroProject) none)⟩,
   ⟨callWith zeroUuid projectOwner, .request "first" (.createProject "Sales" none [])⟩]

/-- The owner of the second project registers the dataset there. -/
def registerAgain (second : RequestContext) : Event :=
  ⟨callWith oneUuid second,
    .request "again" (.registerResource ordersDataset (some oneProject) none)⟩

/-- A check of the condition for new projects and registrations. -/
def checkPlacement (env : Environment) (c : Catalog) (e : Event) : Bool :=
  match e.operation with
  | .request _ (.createProject _ _ _) => true
  | .request _ (.registerResource resource projectId folderId) =>
    (c.resourceBySource e.call.ctx.tenantId (Text.strip resource.sourceSurface)
      (Text.strip resource.sourceRef)).all fun row =>
        row.placement = (targetProject env c e.call projectId, optionalText folderId) ||
          decide (HasRole c e.call.ctx row.projectId .editor)
  | _ => false

theorem placementAuthorised_of_check (c : Catalog) (e : Event)
    (h : checkPlacement env c e = true) : PlacementAuthorised env c e := by
  unfold checkPlacement at h
  split at h
  · rename_i hop
    simp only [PlacementAuthorised, hop]
  · rename_i hop
    simp only [PlacementAuthorised, hop]
    intro row hrow
    rw [hrow, Option.all_some, Bool.or_eq_true, decide_eq_true_eq, decide_eq_true_eq] at h
    exact h
  · simp at h

theorem ownerRegistersAgain :
    ((replay (guarded (next smallDatabase) (checkPlacement smallDatabase)) Catalog.empty
      (registerAgain projectOwner :: catalogued projectOwner)).any fun c =>
        c.resources.rows.any fun row => row.projectId = oneProject) = true := by
  decide +kernel

/-- The owner of both projects moves the dataset by registering it again. -/
theorem movedWithAuthority_ownerRegistersAgain : ∃ u,
    Run (next smallDatabase) (PlacementAuthorised smallDatabase) Catalog.empty
        (catalogued projectOwner) u ∧
      MovedWithAuthority projectOwner u (after smallDatabase u (registerAgain projectOwner)) := by
  obtain ⟨c, hreplay, -⟩ := exists_replay_of_any ownerRegistersAgain
  exact @movedWithAuthority_of_run smallDatabase c [] (catalogued projectOwner)
    (registerAgain projectOwner) (run_of_replay_guarded placementAuthorised_of_check hreplay)

theorem pulledOut :
    ((replay (next smallDatabase) Catalog.empty (catalogued otherOwner)).any fun c =>
      c.resources.rows.any fun row =>
        (after smallDatabase c (registerAgain otherOwner)).resources.rows.any fun row' =>
          row'.id = row.id && row'.placement ≠ row.placement &&
            !decide (HasRole c otherOwner row.projectId .editor)) = true := by
  decide +kernel

/-- **A user without a role in a project registers one of its resources into another.** -/
theorem not_movedWithAuthority : ∃ c,
    Run (next smallDatabase) Always Catalog.empty (catalogued otherOwner) c ∧
      ¬ MovedWithAuthority otherOwner c (after smallDatabase c (registerAgain otherOwner)) := by
  obtain ⟨c, hreplay, hany⟩ := exists_replay_of_any pulledOut
  refine ⟨c, run_always_iff.mpr hreplay, fun h => ?_⟩
  obtain ⟨row, hrow, hrest⟩ := List.any_eq_true.mp hany
  obtain ⟨row', hrow', hmoved⟩ := List.any_eq_true.mp hrest
  simp only [Bool.and_eq_true, decide_eq_true_eq, Bool.not_eq_true', decide_eq_false_iff_not]
    at hmoved
  exact hmoved.2 (h row hrow row' hrow' hmoved.1.1 hmoved.1.2).1

end FoundryLite.ResourceCatalog
