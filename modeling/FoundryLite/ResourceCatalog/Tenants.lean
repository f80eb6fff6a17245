import FoundryLite.ResourceCatalog.Placement
import FoundryLite.Library.Coupling

/-!
# Tenants of one catalog

The tenants share the tables. Every lookup is qualified by the tenant, and every write goes to rows
of the tenant, so a request is answered from the rows of its own tenant. The exception is the
uniqueness of primary keys, which holds over all tenants. Identifiers that are drawn do not meet;
the one of an idempotency record is made of the scope and the key of the request, which two tenants
may both use.

## Main results

* `tenantStep_after`: an operation changes rows of its own tenant only.
* `agree_handle`: what an operation answers depends on its own tenant's rows only, if no other
  tenant holds one of the primary keys it inserts.
* `outcomes_eq_of_run`: two runs with the same operations of a tenant answer them alike.
* `not_outcomes_eq`: two tenants that use one idempotency key.
-/

namespace FoundryLite.ResourceCatalog

open Runs Transaction

variable {env : Environment} {call : Call} {ctx : RequestContext} {c c' c'' : Catalog}
  {tenant : String}

/-! ### Favourites -/

/-- Identifiers of resources have one length, and a favourite is of a resource of its tenant. -/
structure FavoritesOwned (c : Catalog) : Prop where
  length : ∀ row ∈ c.resources.rows, row.id.length = 41
  owned : ∀ row ∈ c.favorites.rows, ∃ resource ∈ c.resources.rows,
    resource.tenantId = row.tenantId ∧ row.id = favoriteId resource.id row.actorUserId

theorem favoriteId_inj {r r' a a' : String} (hlength : r.length = r'.length)
    (h : favoriteId r a = favoriteId r' a') : r = r' := by
  have hlist := congrArg String.toList h
  simp only [favoriteId, toString, String.toList_append, List.append_assoc,
    List.append_cancel_left_eq] at hlist
  have hinitial := (List.append_inj hlist (by rwa [String.length_toList, String.length_toList])).1
  exact String.toList_inj.mp hinitial

theorem length_resourceId (n : Nat) : s!"resource_{(call.draws.resource n).hex}".length = 41 := by
  simp only [toString, String.length_append, (call.draws.resource n).length_hex]
  decide +kernel

/-! ### An operation writes for its own tenant -/

structure TenantStep (tenant : String) (c c' : Catalog) : Prop where
  projects : Table.OthersKept ProjectRow.tenantId tenant c.projects c'.projects
  grants : Table.OthersKept GrantRow.tenantId tenant c.grants c'.grants
  folders : Table.OthersKept FolderRow.tenantId tenant c.folders c'.folders
  resources : Table.OthersKept ResourceRow.tenantId tenant c.resources c'.resources
  favorites : Table.OthersKept FavoriteRow.tenantId tenant c.favorites c'.favorites
  idempotency : Table.OthersKept IdempotencyRow.tenantId tenant c.idempotency c'.idempotency
  favoritesOwned : FavoritesOwned c → FavoritesOwned c'

namespace TenantStep

theorem refl (c : Catalog) : TenantStep tenant c c :=
  ⟨.refl _, .refl _, .refl _, .refl _, .refl _, .refl _, id⟩

theorem trans (c c' c'' : Catalog) (h : TenantStep tenant c c') (h' : TenantStep tenant c' c'') :
    TenantStep tenant c c'' :=
  ⟨h.projects.trans h'.projects, h.grants.trans h'.grants, h.folders.trans h'.folders,
    h.resources.trans h'.resources, h.favorites.trans h'.favorites,
    h.idempotency.trans h'.idempotency, h'.favoritesOwned ∘ h.favoritesOwned⟩

theorem bind {α β : Type} {x : Tx α} {f : α → Tx β} (hx : Stays (TenantStep tenant) x)
    (hf : ∀ a, Stays (TenantStep tenant) (f a)) : Stays (TenantStep tenant) (x >>= f) :=
  Stays.bind trans hx hf

section Writes

theorem of_projects {projects} (h : Table.OthersKept ProjectRow.tenantId tenant c.projects projects) :
    TenantStep tenant c { c with projects } :=
  ⟨h, .refl _, .refl _, .refl _, .refl _, .refl _, fun hc => ⟨hc.length, hc.owned⟩⟩

theorem of_grants {grants} (h : Table.OthersKept GrantRow.tenantId tenant c.grants grants) :
    TenantStep tenant c { c with grants } :=
  ⟨.refl _, h, .refl _, .refl _, .refl _, .refl _, fun hc => ⟨hc.length, hc.owned⟩⟩

theorem of_folders {folders} (h : Table.OthersKept FolderRow.tenantId tenant c.folders folders) :
    TenantStep tenant c { c with folders } :=
  ⟨.refl _, .refl _, h, .refl _, .refl _, .refl _, fun hc => ⟨hc.length, hc.owned⟩⟩

theorem of_idempotency {idempotency}
    (h : Table.OthersKept IdempotencyRow.tenantId tenant c.idempotency idempotency) :
    TenantStep tenant c { c with idempotency } :=
  ⟨.refl _, .refl _, .refl _, .refl _, .refl _, h, fun hc => ⟨hc.length, hc.owned⟩⟩

theorem of_resources {resources : Table ResourceRow.id ResourceRow.source}
    (h : Table.OthersKept ResourceRow.tenantId tenant c.resources resources)
    (hlength : ∀ row ∈ resources.rows, row ∉ c.resources.rows →
      (∃ old ∈ c.resources.rows, row.id = old.id) ∨ row.id.length = 41)
    (hpersist : ∀ row ∈ c.resources.rows, ∃ row' ∈ resources.rows, row'.id = row.id ∧
      row'.tenantId = row.tenantId) : TenantStep tenant c { c with resources } := by
  refine ⟨.refl _, .refl _, .refl _, h, .refl _, .refl _, fun hc => ⟨?_, ?_⟩⟩
  · intro row hrow
    by_cases hold : row ∈ c.resources.rows
    · exact hc.length row hold
    · rcases hlength row hrow hold with ⟨old, hmem, hid⟩ | hlen
      · rw [hid]
        exact hc.length old hmem
      · exact hlen
  · intro row hrow
    obtain ⟨resource, hmem, htenant, hid⟩ := hc.owned row hrow
    obtain ⟨resource', hmem', hid', htenant'⟩ := hpersist resource hmem
    exact ⟨resource', hmem', htenant'.trans htenant, by rw [hid', hid]⟩

/-- An update of resources of the tenant. -/
theorem modify_resources {p : ResourceRow → Bool}
    {u : Table.Update ResourceRow.id ResourceRow.source}
    (hown : ∀ row ∈ c.resources.rows, p row = true → row.tenantId = tenant) :
    TenantStep tenant c { c with resources := c.resources.modify p u } := by
  have htenant : ∀ row, (u.apply row).tenantId = row.tenantId :=
    fun row => congrArg Prod.fst (u.uq_apply row)
  refine of_resources (.modify hown htenant) ?_ ?_
  · intro row hrow _
    obtain ⟨old, hold, rfl⟩ := List.mem_map.mp hrow
    refine .inl ⟨old, hold, ?_⟩
    split_ifs
    · exact u.pk_apply old
    · rfl
  · intro row hrow
    refine ⟨_, List.mem_map.mpr ⟨row, hrow, rfl⟩, ?_⟩
    split_ifs
    · exact ⟨u.pk_apply row, htenant row⟩
    · exact ⟨rfl, rfl⟩

/-- An update of folders of the tenant. -/
theorem modify_folders {p : FolderRow → Bool} {u : Table.Update FolderRow.id FolderRow.ridKey}
    (hown : ∀ row ∈ c.folders.rows, p row = true → row.tenantId = tenant) :
    TenantStep tenant c { c with folders := c.folders.modify p u } :=
  of_folders (.modify hown fun row => congrArg Prod.fst (u.uq_apply row))

end Writes

end TenantStep

/-! ### Primitive writes -/

theorem stays_writeProject {row : ProjectRow} :
    Stays (TenantStep row.tenantId) (writeProject row) := by
  intro s a t h
  simp only [writeProject, bind_eq_ok_iff, get_eq_ok_iff, requireSome_eq_ok_iff, modify_eq_ok_iff,
    Prod.mk.injEq] at h
  obtain ⟨_, _, ⟨rfl, rfl⟩, _, _, ⟨projects, hinsert, rfl, rfl⟩, -, rfl⟩ := h
  exact .of_projects (.insert? rfl hinsert)

theorem stays_upsertProjectGrant {row : GrantRow} :
    Stays (TenantStep row.tenantId) (upsertProjectGrant row) := by
  intro s a t h
  obtain ⟨grants, rfl, hinsert | ⟨existing, hfound, rfl⟩⟩ := upsertProjectGrant_ok h
  · exact .of_grants (.insert? rfl hinsert)
  · obtain ⟨hmem, hkey⟩ := Table.get?_eq_some_iff.mp hfound
    refine .of_grants (.modify (fun row' hrow' hid => ?_) fun _ => rfl)
    obtain rfl := Table.eq_of_pk_eq hrow' hmem (of_decide_eq_true hid)
    exact congrArg Prod.fst hkey

theorem stays_writeFolder {row : FolderRow} :
    Stays (TenantStep row.tenantId) (writeFolder row) := by
  intro s a t h
  simp only [writeFolder, bind_eq_ok_iff, get_eq_ok_iff, requireSome_eq_ok_iff, modify_eq_ok_iff,
    Prod.mk.injEq] at h
  obtain ⟨_, _, ⟨rfl, rfl⟩, _, _, ⟨folders, hinsert, rfl, rfl⟩, -, rfl⟩ := h
  exact .of_folders (.insert? rfl hinsert)

theorem stays_updateFolder {folderId : String} {u : Table.Update FolderRow.id FolderRow.ridKey} :
    Stays (TenantStep tenant) (updateFolder tenant folderId u) := by
  intro s a t h
  obtain rfl := updateFolder_ok h
  refine .modify_folders fun row _ hmeant => ?_
  simp only [Bool.and_eq_true, decide_eq_true_eq] at hmeant
  exact hmeant.1

theorem stays_upsertResource {row : ResourceRow} (hlength : row.id.length = 41) :
    Stays (TenantStep row.tenantId) (upsertResource row) := by
  intro s a t h
  obtain ⟨resources, rfl, ⟨-, hinsert⟩ | ⟨existing, hfound, rfl⟩⟩ := upsertResource_ok h
  · have hrows := Table.rows_of_insert?_eq_some hinsert
    refine .of_resources (.insert? rfl hinsert) (fun row' hrow' hnew => .inr ?_) fun row' hrow' =>
      ⟨row', by simp [hrows, hrow'], rfl, rfl⟩
    rcases List.mem_append.mp (hrows ▸ hrow') with hrow' | hrow'
    · exact absurd hrow' hnew
    · rw [List.mem_singleton.mp hrow']
      exact hlength
  · obtain ⟨hmem, hkey⟩ := Table.get?_eq_some_iff.mp hfound
    refine .modify_resources fun row' hrow' hid => ?_
    obtain rfl := Table.eq_of_pk_eq hrow' hmem (of_decide_eq_true hid)
    exact congrArg Prod.fst hkey

theorem stays_updateResource {resourceId : String}
    {u : Table.Update ResourceRow.id ResourceRow.source} :
    Stays (TenantStep tenant) (updateResource tenant resourceId u) := by
  intro s a t h
  obtain rfl := updateResource_ok h
  refine .modify_resources fun row _ hmeant => ?_
  simp only [Bool.and_eq_true, decide_eq_true_eq] at hmeant
  exact hmeant.1

/-- A favourite of a resource of the tenant. -/
theorem tenantStep_addFavorite {resource : ResourceRow} {actorUserId now : String} {u : Unit}
    (hmem : resource ∈ c.resources.rows) (htenant : resource.tenantId = tenant)
    (h : addFavorite env tenant resource.id actorUserId now c = .ok (u, c')) :
    TenantStep tenant c c' := by
  obtain ⟨_, _, hget, h⟩ := bind_eq_ok_iff.mp h
  obtain ⟨rfl, rfl⟩ := Prod.mk.inj (get_eq_ok_iff.mp hget)
  cases hinsert : c.favorites.insert? (favoriteRow tenant resource.id actorUserId now) with
  | some favorites =>
    simp only [hinsert] at h
    obtain ⟨-, rfl⟩ := Prod.mk.inj (modify_eq_ok_iff.mp h)
    refine ⟨.refl _, .refl _, .refl _, .refl _, .insert? rfl hinsert, .refl _, fun hc =>
      ⟨hc.length, fun row hrow => ?_⟩⟩
    rcases List.mem_append.mp (Table.rows_of_insert?_eq_some hinsert ▸ hrow) with hrow | hrow
    · exact hc.owned row hrow
    · rw [List.mem_singleton.mp hrow]
      exact ⟨resource, hmem, htenant, rfl⟩
  | none =>
    simp only [hinsert] at h
    obtain ⟨-, heq⟩ := require_eq_ok_iff.mp h
    obtain rfl := (Prod.mk.inj heq).2
    exact .refl _

theorem stays_removeFavorite {resourceId actorUserId : String} :
    Stays (TenantStep tenant) (removeFavorite tenant resourceId actorUserId) := by
  intro s a t h
  obtain ⟨-, rfl⟩ := Prod.mk.inj (modify_eq_ok_iff.mp h)
  refine ⟨.refl _, .refl _, .refl _, .refl _, .deleteWhere fun row hrow => ?_, .refl _, fun hc =>
    ⟨hc.length, fun row hrow => hc.owned row (List.mem_of_mem_filter hrow)⟩⟩
  simp only [Bool.and_eq_true, decide_eq_true_eq] at hrow
  exact hrow.1.1

theorem stays_storeIdempotencyRecord {scope idempotencyKey requestHash now : String}
    {response : Mapping} : Stays (TenantStep tenant)
      (storeIdempotencyRecord tenant scope idempotencyKey requestHash response now) := by
  intro s a t h
  simp only [storeIdempotencyRecord, bind_eq_ok_iff, get_eq_ok_iff, requireSome_eq_ok_iff,
    modify_eq_ok_iff, Prod.mk.injEq] at h
  obtain ⟨_, _, ⟨rfl, rfl⟩, _, _, ⟨idempotency, hinsert, rfl, rfl⟩, -, rfl⟩ := h
  exact .of_idempotency (.insert? rfl hinsert)

/-! ### Writers -/

theorem stays_readBack {α : Type} {what : String} {row : Option α} :
    Stays (TenantStep tenant) (readBack what row : Tx α) := Stays.requireSome TenantStep.refl

theorem stays_requireProject {projectId : String} {minimum : ProjectRole} :
    Stays (TenantStep tenant) (requireProject ctx projectId minimum) := by
  intro s a t h
  rw [(requireProject_ok h).2]
  exact .refl s

theorem stays_requireParentFolder {projectId : String} {folderId : Option String} :
    Stays (TenantStep tenant) (requireParentFolder ctx projectId folderId) := by
  intro s a t h
  rw [(requireParentFolder_ok h).2]
  exact .refl s

theorem stays_projectFolder {projectId folderId : String} :
    Stays (TenantStep tenant) (projectFolder ctx projectId folderId) := by
  intro s a t h
  rw [(projectFolder_ok h).2.2]
  exact .refl s

theorem stays_resourceByRid {rid : String} :
    Stays (TenantStep tenant) (resourceByRid ctx rid) := by
  intro s a t h
  rw [(resourceByRid_ok h).2]
  exact .refl s

theorem stays_requireSome {α : Type} {value? : Option α} {e : FoundryLiteError} :
    Stays (TenantStep tenant) (requireSome value? e : Tx α) := Stays.requireSome TenantStep.refl

theorem stays_pure {α : Type} {a : α} : Stays (TenantStep tenant) (pure a : Tx α) :=
  Stays.pure TenantStep.refl a

theorem stays_newProject {displayName : String} {description : Option String}
    {metadata : Mapping} : Stays (TenantStep call.ctx.tenantId)
      (newProject call displayName description metadata) :=
  TenantStep.bind (TenantStep.bind stays_writeProject fun _ => Stays.get_bind fun _ => stays_readBack) fun _ =>
    TenantStep.bind stays_upsertProjectGrant fun _ => stays_pure

theorem stays_resourceProjectId {projectId : Option String} :
    Stays (TenantStep call.ctx.tenantId) (resourceProjectId env call projectId) := by
  unfold resourceProjectId
  cases optionalText projectId with
  | some value => exact stays_pure
  | none =>
    refine Stays.get_bind fun c => ?_
    cases personalProject env c call.ctx with
    | some personal => exact stays_pure
    | none => exact TenantStep.bind stays_newProject fun _ => stays_pure

theorem stays_upsertRecord {n : Nat} {candidate : ResourceCandidate} {projectId : String}
    {folderId : Option String} : Stays (TenantStep call.ctx.tenantId)
      (upsertResource (resourceRecord call n candidate projectId folderId)) :=
  stays_upsertResource (length_resourceId n)

theorem stays_favoriteResourceMutation {rid : String} {shouldAdd : Bool} :
    Stays (TenantStep call.ctx.tenantId) (favoriteResourceMutation env call rid shouldAdd) := by
  intro s response t h
  obtain ⟨row, s₁, hrow, hrest⟩ := bind_eq_ok_iff.mp h
  obtain ⟨hfound, rfl⟩ := resourceByRid_ok hrow
  obtain ⟨hmem, htenant⟩ := resourceByRid_eq_some hfound
  obtain ⟨_, s₂, hproject, hwrite⟩ := bind_eq_ok_iff.mp hrest
  obtain ⟨-, rfl⟩ := requireProject_ok hproject
  cases shouldAdd with
  | true =>
    obtain ⟨_, s₃, hadd, hpure⟩ := bind_eq_ok_iff.mp hwrite
    obtain ⟨-, rfl⟩ := Prod.mk.inj (pure_eq_ok_iff.mp hpure)
    exact tenantStep_addFavorite hmem htenant hadd
  | false =>
    obtain ⟨_, s₃, hremove, hpure⟩ := bind_eq_ok_iff.mp hwrite
    obtain ⟨-, rfl⟩ := Prod.mk.inj (pure_eq_ok_iff.mp hpure)
    exact stays_removeFavorite _ _ _ hremove

theorem stays_writer {request : Request} {m : Mutation}
    (h : mutationOf env call request = .ok m) : Stays (TenantStep call.ctx.tenantId) m.writer := by
  cases request with
  | createProject displayName description metadata =>
    simp only [mutationOf, Except.bind_eq_ok_iff, Except.pure_eq_ok_iff] at h
    obtain ⟨name, -, rfl⟩ := h
    exact TenantStep.bind stays_newProject fun _ => stays_pure
  | upsertProjectGrant projectId principalType principalId role =>
    simp only [mutationOf, Except.bind_eq_ok_iff, Except.pure_eq_ok_iff] at h
    obtain ⟨_, -, _, -, rfl⟩ := h
    exact TenantStep.bind (Stays.lift TenantStep.refl) fun _ => TenantStep.bind stays_requireProject fun _ =>
      TenantStep.bind stays_upsertProjectGrant fun _ => stays_pure
  | createFolder projectId displayName parentFolderId metadata =>
    simp only [mutationOf, Except.bind_eq_ok_iff, Except.pure_eq_ok_iff] at h
    obtain ⟨name, -, rfl⟩ := h
    exact TenantStep.bind stays_requireProject fun _ => TenantStep.bind stays_requireParentFolder fun _ =>
      TenantStep.bind (TenantStep.bind stays_writeFolder fun _ => Stays.get_bind fun _ => stays_readBack) fun _ =>
        stays_pure
  | moveFolder projectId folderId parentFolderId =>
    obtain rfl := Except.pure_eq_ok_iff.mp h
    exact TenantStep.bind stays_requireProject fun _ => TenantStep.bind stays_projectFolder fun _ =>
      TenantStep.bind stays_requireParentFolder fun _ => TenantStep.bind stays_updateFolder fun _ =>
        TenantStep.bind stays_requireSome fun _ => stays_pure
  | setFolderStatus projectId folderId status =>
    obtain rfl := Except.pure_eq_ok_iff.mp h
    exact TenantStep.bind stays_requireProject fun _ => TenantStep.bind stays_projectFolder fun _ =>
      TenantStep.bind stays_updateFolder fun _ => TenantStep.bind stays_requireSome fun _ => stays_pure
  | registerResource resource projectId folderId =>
    simp only [mutationOf, Except.bind_eq_ok_iff, Except.pure_eq_ok_iff] at h
    obtain ⟨_, -, _, -, _, -, _, -, rfl⟩ := h
    exact TenantStep.bind stays_resourceProjectId fun _ => TenantStep.bind stays_requireProject fun _ =>
      TenantStep.bind stays_requireParentFolder fun _ => TenantStep.bind stays_upsertRecord fun _ => stays_pure
  | moveResource rid projectId folderId =>
    obtain rfl := Except.pure_eq_ok_iff.mp h
    exact TenantStep.bind stays_resourceByRid fun _ => TenantStep.bind stays_requireProject fun _ =>
      TenantStep.bind stays_requireProject fun _ => TenantStep.bind stays_requireParentFolder fun _ =>
        TenantStep.bind stays_updateResource fun _ => TenantStep.bind stays_requireSome fun _ => stays_pure
  | setResourceStatus rid status =>
    obtain rfl := Except.pure_eq_ok_iff.mp h
    exact TenantStep.bind stays_resourceByRid fun _ => TenantStep.bind stays_requireProject fun _ =>
      TenantStep.bind stays_updateResource fun _ => TenantStep.bind stays_requireSome fun _ => stays_pure
  | favoriteResource rid shouldAdd =>
    obtain rfl := Except.pure_eq_ok_iff.mp h
    exact stays_favoriteResourceMutation
  | reconcile projectId =>
    obtain rfl := Except.pure_eq_ok_iff.mp h
    refine TenantStep.bind (Stays.require TenantStep.refl) fun _ => TenantStep.bind stays_resourceProjectId fun _ =>
      TenantStep.bind ?_ fun _ => stays_pure
    intro s rows t hrows
    exact mapM_relates (TenantStep call.ctx.tenantId) TenantStep.refl TenantStep.trans
      (fun _ _ s row s' hrow => stays_upsertRecord s row s' hrow) hrows

/-- **An operation changes rows of its own tenant only.** -/
theorem tenantStep_after (env : Environment) (c : Catalog) (e : Event) :
    TenantStep e.call.ctx.tenantId c (after env c e) := by
  have hhandle : Stays (TenantStep e.call.ctx.tenantId) (handle env e) := by
    unfold handle
    cases e.operation with
    | request key request =>
      intro s response t h
      obtain ⟨m, s₁, hm, h⟩ := bind_eq_ok_iff.mp h
      obtain ⟨m', hmut, heq⟩ := lift_eq_ok_iff.mp hm
      obtain ⟨rfl, rfl⟩ := Prod.mk.inj heq
      have hrun : Stays (TenantStep e.call.ctx.tenantId) (runMutation env e.call key m') := by
        refine Stays.get_bind fun c => ?_
        cases c.idempotencyRecord e.call.ctx.tenantId m'.scope key with
        | some existing => exact Stays.lift TenantStep.refl
        | none =>
          exact TenantStep.bind (stays_writer hmut) fun _ =>
            TenantStep.bind stays_storeIdempotencyRecord fun _ => stays_pure
      exact hrun _ _ _ h
    | workProduct resource =>
      exact TenantStep.bind stays_resourceProjectId fun _ => TenantStep.bind stays_upsertRecord fun _ => stays_pure
  cases hrun : handle env e c with
  | error err =>
    rw [after, attempt_of_error hrun]
    exact .refl c
  | ok r =>
    rw [after, attempt_of_ok hrun]
    exact hhandle c r.1 r.2 hrun

/-! ### Catalogs that one tenant cannot tell apart -/

/-- Both catalogs hold the same rows of the tenant. No row of another tenant has one of the
identifiers `ids`, and no idempotency record of another tenant one of `keys`. Identifiers of
favourites are looked at apart. -/
structure SameTenant (tenant : String) (ids keys : Set String) (c c' : Catalog) : Prop where
  projects : Table.SameOwn ProjectRow.tenantId tenant ids c.projects c'.projects
  grants : Table.SameOwn GrantRow.tenantId tenant ids c.grants c'.grants
  folders : Table.SameOwn FolderRow.tenantId tenant ids c.folders c'.folders
  resources : Table.SameOwn ResourceRow.tenantId tenant ids c.resources c'.resources
  favorites : Table.SameOwn FavoriteRow.tenantId tenant ∅ c.favorites c'.favorites
  idempotency : Table.SameOwn IdempotencyRow.tenantId tenant keys c.idempotency c'.idempotency

namespace SameTenant

variable {ids keys : Set String}

section Reads

variable (h : SameTenant tenant ids keys c c')

include h

theorem projectById (projectId : String) :
    c.projectById tenant projectId = c'.projectById tenant projectId :=
  h.projects.find?_eq fun row => row.id = projectId

theorem listProjects : c.listProjects tenant env = c'.listProjects tenant env :=
  congrArg env.orderProjects (h.projects.filter_eq fun row => row.status = .active)

theorem listProjectGrants (projectId : String) :
    c.listProjectGrants tenant projectId = c'.listProjectGrants tenant projectId :=
  h.grants.filter_eq fun row => row.projectId = projectId

theorem folderById (folderId : String) :
    c.folderById tenant folderId = c'.folderById tenant folderId :=
  h.folders.find?_eq fun row => row.id = folderId

theorem resourceById (resourceId : String) :
    c.resourceById tenant resourceId = c'.resourceById tenant resourceId :=
  h.resources.find?_eq fun row => row.id = resourceId

theorem resourceByRid (rid : String) :
    c.resourceByRid tenant rid = c'.resourceByRid tenant rid :=
  h.resources.find?_eq fun row => row.rid = rid

theorem resourceBySource (sourceSurface sourceRef : String) :
    c.resourceBySource tenant sourceSurface sourceRef =
      c'.resourceBySource tenant sourceSurface sourceRef :=
  h.resources.get?_eq fun _ hkey => congrArg Prod.fst hkey

theorem idempotencyRecord (scope idempotencyKey : String) :
    c.idempotencyRecord tenant scope idempotencyKey =
      c'.idempotencyRecord tenant scope idempotencyKey :=
  h.idempotency.get?_eq fun _ hkey => congrArg Prod.fst hkey

theorem projectRole (ctx : RequestContext) (htenant : ctx.tenantId = tenant) (projectId : String) :
    projectRole c ctx projectId = ResourceCatalog.projectRole c' ctx projectId := by
  rw [ResourceCatalog.projectRole, ResourceCatalog.projectRole, htenant,
    h.listProjectGrants projectId]

theorem personalProject (ctx : RequestContext) (htenant : ctx.tenantId = tenant) :
    personalProject env c ctx = ResourceCatalog.personalProject env c' ctx := by
  rw [ResourceCatalog.personalProject, ResourceCatalog.personalProject, htenant, h.listProjects]

end Reads

end SameTenant

/-! ### Coupled writes -/

section Coupled

variable {ids keys : Set String}

theorem couples_writeProject {row : ProjectRow} (hid : row.id ∈ ids) :
    Couples (SameTenant row.tenantId ids keys) (writeProject row) (writeProject row) := by
  refine Couples.replace fun s t h => ?_
  rcases (h.projects.insert? rfl hid fun _ hkey => congrArg Prod.fst hkey).cases with
    hnone | ⟨a, b, hs, ht, hab⟩
  · exact .inl hnone
  · exact .inr ⟨a, b, hs, ht, { h with projects := hab }⟩

theorem couples_writeFolder {row : FolderRow} (hid : row.id ∈ ids) :
    Couples (SameTenant row.tenantId ids keys) (writeFolder row) (writeFolder row) := by
  refine Couples.replace fun s t h => ?_
  rcases (h.folders.insert? rfl hid fun _ hkey => congrArg Prod.fst hkey).cases with
    hnone | ⟨a, b, hs, ht, hab⟩
  · exact .inl hnone
  · exact .inr ⟨a, b, hs, ht, { h with folders := hab }⟩

theorem couples_writeGrant {row : GrantRow} (hid : row.id ∈ ids) (existing : Option GrantRow) :
    Couples (SameTenant row.tenantId ids keys) (writeGrant row existing) (writeGrant row existing) := by
  cases existing with
  | none =>
    refine Couples.replace fun s t h => ?_
    rcases (h.grants.insert? rfl hid fun _ hkey => congrArg Prod.fst hkey).cases with
      hnone | ⟨a, b, hs, ht, hab⟩
    · exact .inl hnone
    · exact .inr ⟨a, b, hs, ht, { h with grants := hab }⟩
  | some existing =>
    exact Couples.modify fun s t h => { h with grants := h.grants.modify fun _ => rfl }

theorem couples_upsertProjectGrant {row : GrantRow} (hid : row.id ∈ ids) :
    Couples (SameTenant row.tenantId ids keys) (upsertProjectGrant row) (upsertProjectGrant row) := by
  have hread : ∀ s t, SameTenant row.tenantId ids keys s t →
      s.grants.get? row.principal = t.grants.get? row.principal := fun s t h =>
    h.grants.get?_eq fun _ hkey => congrArg Prod.fst hkey
  refine Couples.get_bind fun s t h => ?_
  rw [hread s t h]
  refine (couples_writeGrant hid _).bind fun _ => Couples.get_bind fun s t h => ?_
  rw [hread s t h]
  exact Couples.requireSome

theorem couples_insertFolder {row : FolderRow} (hid : row.id ∈ ids) :
    Couples (SameTenant row.tenantId ids keys) (insertFolder row) (insertFolder row) := by
  refine (couples_writeFolder hid).bind fun _ => Couples.get_bind fun s t h => ?_
  rw [h.folderById]
  exact Couples.requireSome

theorem couples_updateFolder {folderId : String}
    {u : Table.Update FolderRow.id FolderRow.ridKey} :
    Couples (SameTenant tenant ids keys) (updateFolder tenant folderId u)
      (updateFolder tenant folderId u) := by
  have htenant : ∀ row, (u.apply row).tenantId = row.tenantId :=
    fun row => congrArg Prod.fst (u.uq_apply row)
  refine (Couples.modify fun s t h => { h with folders := h.folders.modify htenant }).bind fun _ =>
    Couples.get_bind fun s t h => ?_
  rw [h.folderById]
  exact Couples.pure _

theorem couples_writeResource {row : ResourceRow} (hid : row.id ∈ ids) :
    Couples (SameTenant row.tenantId ids keys) (writeResource row) (writeResource row) := by
  refine Couples.get_bind fun s t h => ?_
  rw [h.resources.all_eq fun other hne => by simp [ResourceRow.ridKey, hne]]
  refine Couples.require.bind fun _ => Couples.replace fun s t h => ?_
  rcases (h.resources.insert? rfl hid fun _ hkey => congrArg Prod.fst hkey).cases with
    hnone | ⟨a, b, hs, ht, hab⟩
  · exact .inl hnone
  · exact .inr ⟨a, b, hs, ht, { h with resources := hab }⟩

theorem couples_upsertResource {row : ResourceRow} (hid : row.id ∈ ids) :
    Couples (SameTenant row.tenantId ids keys) (upsertResource row) (upsertResource row) := by
  refine Couples.get_bind fun s t h => ?_
  rw [h.resourceBySource]
  cases t.resourceBySource row.tenantId row.sourceSurface row.sourceRef with
  | none =>
    refine (couples_writeResource hid).bind fun _ => Couples.get_bind fun s t h => ?_
    rw [h.resourceByRid]
    exact Couples.requireSome
  | some existing =>
    refine (Couples.modify fun s t h =>
      { h with resources := h.resources.modify fun _ => rfl }).bind fun _ =>
        Couples.get_bind fun s t h => ?_
    rw [h.resourceByRid]
    exact Couples.requireSome

theorem couples_updateResource {resourceId : String}
    {u : Table.Update ResourceRow.id ResourceRow.source} :
    Couples (SameTenant tenant ids keys) (updateResource tenant resourceId u)
      (updateResource tenant resourceId u) := by
  have htenant : ∀ row, (u.apply row).tenantId = row.tenantId :=
    fun row => congrArg Prod.fst (u.uq_apply row)
  refine (Couples.modify fun s t h =>
    { h with resources := h.resources.modify htenant }).bind fun _ =>
      Couples.get_bind fun s t h => ?_
  rw [h.resourceById]
  exact Couples.pure _

theorem couples_removeFavorite {resourceId actorUserId : String} :
    Couples (SameTenant tenant ids keys) (removeFavorite tenant resourceId actorUserId)
      (removeFavorite tenant resourceId actorUserId) :=
  Couples.modify fun _ _ h => { h with favorites := h.favorites.deleteWhere }

theorem couples_storeIdempotencyRecord {scope idempotencyKey requestHash now : String}
    {response : Mapping} (hid : idempotencyId scope idempotencyKey ∈ keys) :
    Couples (SameTenant tenant ids keys)
      (storeIdempotencyRecord tenant scope idempotencyKey requestHash response now)
      (storeIdempotencyRecord tenant scope idempotencyKey requestHash response now) := by
  refine Couples.replace fun s t h => ?_
  let row : IdempotencyRow := ⟨idempotencyId scope idempotencyKey, tenant, scope, idempotencyKey,
    requestHash, response, now, now⟩
  have hinsert := h.idempotency.insert? (r := row) rfl hid
    fun x (hkey : x.key = row.key) => congrArg Prod.fst hkey
  rcases hinsert.cases with hnone | ⟨a, b, hs, ht, hab⟩
  · exact .inl hnone
  · exact .inr ⟨a, b, hs, ht, { h with idempotency := hab }⟩

/-- No other tenant has a favourite under the identifier of a favourite of this tenant. -/
theorem favorites_clear (hc : FavoritesOwned c) {resource : ResourceRow}
    (hresource : resource ∈ c.resources.rows) (htenant : resource.tenantId = tenant)
    (actorUserId : String) : ∀ row ∈ c.favorites.rows, row.tenantId ≠ tenant →
      row.id ∉ ({favoriteId resource.id actorUserId} : Set String) := by
  intro row hrow hne hid
  obtain ⟨other, hother, htenant', hid'⟩ := hc.owned row hrow
  have hlength : other.id.length = resource.id.length := by
    rw [hc.length other hother, hc.length resource hresource]
  have hsame := favoriteId_inj hlength (hid'.symm.trans hid)
  obtain rfl := Table.eq_of_pk_eq hother hresource hsame
  exact hne (htenant'.symm.trans htenant)

theorem agree_addFavorite (h : SameTenant tenant ids keys c c') (hc : FavoritesOwned c)
    (hc' : FavoritesOwned c') {resource : ResourceRow} (hresource : resource ∈ c.resources.rows)
    (htenant : resource.tenantId = tenant) (actorUserId now : String) :
    Agree (SameTenant tenant ids keys) (addFavorite env tenant resource.id actorUserId now c)
      (addFavorite env tenant resource.id actorUserId now c') := by
  have hown : Table.SameOwn FavoriteRow.tenantId tenant {favoriteId resource.id actorUserId}
      c.favorites c'.favorites :=
    ⟨h.favorites.own, favorites_clear hc hresource htenant actorUserId,
      favorites_clear hc' ((h.resources.mem_iff htenant).mp hresource) htenant actorUserId⟩
  have hinsert := hown.insert? (r := favoriteRow tenant resource.id actorUserId now) rfl rfl
    fun _ hkey => congrArg Prod.fst hkey
  unfold addFavorite
  refine Agree.get_bind ?_
  rcases hinsert.cases with ⟨hs, ht⟩ | ⟨a, b, hs, ht, hab⟩
  · rw [hs, ht]
    exact Couples.require c c' h
  · rw [hs, ht]
    exact .ok { h with favorites := hab.mono fun _ hmem => hmem.elim }

/-! ### Coupled writers -/

section Writers

variable {row : ResourceRow}

/-- The row a repository method writes and reads back. -/
theorem couples_insertProject {row : ProjectRow} (hid : row.id ∈ ids) :
    Couples (SameTenant row.tenantId ids keys) (insertProject row) (insertProject row) := by
  refine (couples_writeProject hid).bind fun _ => Couples.get_bind fun s t h => ?_
  rw [h.projectById]
  exact Couples.requireSome

theorem couples_requireProject {projectId : String} {minimum : ProjectRole} :
    Couples (SameTenant ctx.tenantId ids keys) (requireProject ctx projectId minimum)
      (requireProject ctx projectId minimum) := by
  refine Couples.get_bind fun s t h => ?_
  rw [h.projectById, h.projectRole ctx rfl]
  exact Couples.requireSome.bind fun _ => Couples.require.bind fun _ => Couples.pure _

theorem couples_folderById {folderId : String} :
    Couples (SameTenant ctx.tenantId ids keys) (folderById ctx folderId)
      (folderById ctx folderId) := by
  refine Couples.get_bind fun s t h => ?_
  rw [h.folderById]
  exact Couples.requireSome

theorem couples_requireParentFolder {projectId : String} {folderId : Option String} :
    Couples (SameTenant ctx.tenantId ids keys) (requireParentFolder ctx projectId folderId)
      (requireParentFolder ctx projectId folderId) := by
  cases folderId with
  | none => exact Couples.pure ()
  | some folderId => exact couples_folderById.bind fun _ => Couples.require

theorem couples_projectFolder {projectId folderId : String} :
    Couples (SameTenant ctx.tenantId ids keys) (projectFolder ctx projectId folderId)
      (projectFolder ctx projectId folderId) :=
  couples_folderById.bind fun _ => Couples.require.bind fun _ => Couples.pure _

theorem couples_resourceByRid {rid : String} :
    Couples (SameTenant ctx.tenantId ids keys) (resourceByRid ctx rid) (resourceByRid ctx rid) := by
  refine Couples.get_bind fun s t h => ?_
  rw [h.resourceByRid]
  exact Couples.requireSome

/-- The identifiers that a call may draw for the rows it inserts. -/
def drawnIds (call : Call) : Set String :=
  {s!"project_{call.draws.project.hex}", s!"project_grant_{call.draws.grant.hex}",
    s!"folder_{call.draws.folder.hex}"} ∪
  Set.range fun n => s!"resource_{(call.draws.resource n).hex}"

theorem resourceRecord_mem {n : Nat} {candidate : ResourceCandidate} {projectId : String}
    {folderId : Option String} :
    (resourceRecord call n candidate projectId folderId).id ∈ drawnIds call :=
  .inr ⟨n, rfl⟩

theorem couples_newProject {displayName : String} {description : Option String}
    {metadata : Mapping} :
    Couples (SameTenant call.ctx.tenantId (drawnIds call) keys)
      (newProject call displayName description metadata)
      (newProject call displayName description metadata) := by
  have hproject : (projectRecord call displayName description metadata).id ∈ drawnIds call :=
    .inl (.inl rfl)
  have hgrant : ∀ projectId, (ownerGrantRecord call projectId).id ∈ drawnIds call :=
    fun _ => .inl (.inr (.inl rfl))
  exact (couples_insertProject hproject).bind fun project =>
    (couples_upsertProjectGrant (hgrant project.id)).bind fun _ => Couples.pure _

theorem couples_resourceProjectId {projectId : Option String} :
    Couples (SameTenant call.ctx.tenantId (drawnIds call) keys)
      (resourceProjectId env call projectId) (resourceProjectId env call projectId) := by
  unfold resourceProjectId
  cases optionalText projectId with
  | some value => exact Couples.pure value
  | none =>
    refine Couples.get_bind fun s t h => ?_
    rw [h.personalProject call.ctx rfl]
    cases personalProject env t call.ctx with
    | some personal => exact Couples.pure _
    | none => exact couples_newProject.bind fun _ => Couples.pure _

theorem couples_upsertRecord {n : Nat} {candidate : ResourceCandidate} {projectId : String}
    {folderId : Option String} :
    Couples (SameTenant call.ctx.tenantId (drawnIds call) keys)
      (upsertResource (resourceRecord call n candidate projectId folderId))
      (upsertResource (resourceRecord call n candidate projectId folderId)) :=
  couples_upsertResource resourceRecord_mem

/-- A favourite, in catalogs whose favourites belong to the tenant of their resource. -/
theorem agree_favoriteResourceMutation (h : SameTenant call.ctx.tenantId ids keys c c')
    (hc : FavoritesOwned c) (hc' : FavoritesOwned c') {rid : String} {shouldAdd : Bool} :
    Agree (SameTenant call.ctx.tenantId ids keys)
      (favoriteResourceMutation env call rid shouldAdd c)
      (favoriteResourceMutation env call rid shouldAdd c') := by
  cases shouldAdd with
  | false =>
    exact (couples_resourceByRid.bind fun _ => couples_requireProject.bind fun _ =>
      couples_removeFavorite.bind fun _ => Couples.pure _) c c' h
  | true =>
    refine (couples_resourceByRid c c' h).bind_of fun row s t hrow hrow' h => ?_
    obtain ⟨hfound, rfl⟩ := resourceByRid_ok hrow
    obtain ⟨-, rfl⟩ := resourceByRid_ok hrow'
    obtain ⟨hmem, htenant⟩ := resourceByRid_eq_some hfound
    refine (couples_requireProject s t h).bind_of fun project s' t' hproject hproject' h => ?_
    obtain ⟨-, rfl⟩ := requireProject_ok hproject
    obtain ⟨-, rfl⟩ := requireProject_ok hproject'
    exact (agree_addFavorite h hc hc' hmem htenant _ _).bind_of fun _ s t _ _ h =>
      Couples.pure _ s t h

/-- The writer of a request, on behalf of its tenant. -/
theorem agree_writer (h : SameTenant call.ctx.tenantId (drawnIds call) keys c c')
    (hc : FavoritesOwned c) (hc' : FavoritesOwned c') {request : Request} {m : Mutation}
    (hm : mutationOf env call request = .ok m) :
    Agree (SameTenant call.ctx.tenantId (drawnIds call) keys) (m.writer c) (m.writer c') := by
  cases request with
  | createProject displayName description metadata =>
    simp only [mutationOf, Except.bind_eq_ok_iff, Except.pure_eq_ok_iff] at hm
    obtain ⟨name, -, rfl⟩ := hm
    exact (couples_newProject.bind fun _ => Couples.pure _) c c' h
  | upsertProjectGrant projectId principalType principalId role =>
    simp only [mutationOf, Except.bind_eq_ok_iff, Except.pure_eq_ok_iff] at hm
    obtain ⟨parsedType, -, parsedRole, -, rfl⟩ := hm
    have hgrant : ∀ principalId,
        (grantRecord call projectId parsedType principalId parsedRole).id ∈ drawnIds call :=
      fun _ => .inl (.inr (.inl rfl))
    exact (Couples.lift.bind fun principalId => couples_requireProject.bind fun _ =>
      (couples_upsertProjectGrant (hgrant principalId)).bind fun _ => Couples.pure _) c c' h
  | createFolder projectId displayName parentFolderId metadata =>
    simp only [mutationOf, Except.bind_eq_ok_iff, Except.pure_eq_ok_iff] at hm
    obtain ⟨name, -, rfl⟩ := hm
    have hfolder : (folderRecord call projectId parentFolderId name metadata).id ∈ drawnIds call :=
      .inl (.inr (.inr rfl))
    exact (couples_requireProject.bind fun _ => couples_requireParentFolder.bind fun _ =>
      (couples_insertFolder hfolder).bind fun _ => Couples.pure _) c c' h
  | moveFolder projectId folderId parentFolderId =>
    obtain rfl := Except.pure_eq_ok_iff.mp hm
    exact (couples_requireProject.bind fun _ => couples_projectFolder.bind fun _ =>
      couples_requireParentFolder.bind fun _ => couples_updateFolder.bind fun _ =>
        Couples.requireSome.bind fun _ => Couples.pure _) c c' h
  | setFolderStatus projectId folderId status =>
    obtain rfl := Except.pure_eq_ok_iff.mp hm
    exact (couples_requireProject.bind fun _ => couples_projectFolder.bind fun _ =>
      couples_updateFolder.bind fun _ => Couples.requireSome.bind fun _ => Couples.pure _) c c' h
  | registerResource resource projectId folderId =>
    simp only [mutationOf, Except.bind_eq_ok_iff, Except.pure_eq_ok_iff] at hm
    obtain ⟨_, -, _, -, _, -, _, -, rfl⟩ := hm
    exact (couples_resourceProjectId.bind fun _ => couples_requireProject.bind fun _ =>
      couples_requireParentFolder.bind fun _ => couples_upsertRecord.bind fun _ =>
        Couples.pure _) c c' h
  | moveResource rid projectId folderId =>
    obtain rfl := Except.pure_eq_ok_iff.mp hm
    exact (couples_resourceByRid.bind fun _ => couples_requireProject.bind fun _ =>
      couples_requireProject.bind fun _ => couples_requireParentFolder.bind fun _ =>
        couples_updateResource.bind fun _ => Couples.requireSome.bind fun _ =>
          Couples.pure _) c c' h
  | setResourceStatus rid status =>
    obtain rfl := Except.pure_eq_ok_iff.mp hm
    exact (couples_resourceByRid.bind fun _ => couples_requireProject.bind fun _ =>
      couples_updateResource.bind fun _ => Couples.requireSome.bind fun _ =>
        Couples.pure _) c c' h
  | favoriteResource rid shouldAdd =>
    obtain rfl := Except.pure_eq_ok_iff.mp hm
    exact agree_favoriteResourceMutation h hc hc'
  | reconcile projectId =>
    obtain rfl := Except.pure_eq_ok_iff.mp hm
    exact (Couples.require.bind fun _ => couples_resourceProjectId.bind fun _ =>
      (Couples.mapM fun _ _ => couples_upsertRecord).bind fun _ => Couples.pure _) c c' h

/-- A request with a known key is answered from the tenant's own record; any other stores one. -/
theorem agree_runMutation {m : Mutation} {idempotencyKey : String}
    (h : SameTenant call.ctx.tenantId ids keys c c')
    (hkey : idempotencyId m.scope idempotencyKey ∈ keys)
    (hwriter : Agree (SameTenant call.ctx.tenantId ids keys) (m.writer c) (m.writer c')) :
    Agree (SameTenant call.ctx.tenantId ids keys) (runMutation env call idempotencyKey m c)
      (runMutation env call idempotencyKey m c') := by
  refine Agree.get_bind ?_
  rw [h.idempotencyRecord]
  cases c'.idempotencyRecord call.ctx.tenantId m.scope idempotencyKey with
  | some existing => exact Couples.lift c c' h
  | none =>
    exact hwriter.bind_of fun response s t _ _ h =>
      ((couples_storeIdempotencyRecord hkey).bind fun _ => Couples.pure response) s t h

/-- The identifier of the idempotency record that an operation stores, if it stores one. -/
def storedKeys (env : Environment) (e : Event) : Set String :=
  {id | ∃ idempotencyKey request m, e.operation = .request idempotencyKey request ∧
    mutationOf env e.call request = .ok m ∧ id = idempotencyId m.scope idempotencyKey}

/-- **What an operation answers depends on its own tenant's rows only**, if no other tenant holds
one of the primary keys it inserts. -/
theorem agree_handle {e : Event}
    (h : SameTenant e.call.ctx.tenantId (drawnIds e.call) (storedKeys env e) c c')
    (hc : FavoritesOwned c) (hc' : FavoritesOwned c') :
    Agree (SameTenant e.call.ctx.tenantId (drawnIds e.call) (storedKeys env e)) (handle env e c)
      (handle env e c') := by
  unfold handle
  cases hop : e.operation with
  | request idempotencyKey request =>
    refine (Couples.lift c c' h).bind_of fun m s t hm hm' h => ?_
    obtain ⟨_, hmut, heq⟩ := lift_eq_ok_iff.mp hm
    obtain ⟨rfl, rfl⟩ := Prod.mk.inj heq
    obtain ⟨_, -, heq'⟩ := lift_eq_ok_iff.mp hm'
    obtain rfl := (Prod.mk.inj heq').2
    exact agree_runMutation h ⟨idempotencyKey, request, _, hop, hmut, rfl⟩
      (agree_writer h hc hc' hmut)
  | workProduct resource =>
    exact (couples_resourceProjectId.bind fun _ => couples_upsertRecord.bind fun _ =>
      Couples.pure _) c c' h

end Writers

end Coupled

/-! ### Two runs -/

/-- The identifiers an operation draws are not those of another tenant's rows, as it is of
`uuid4`. -/
structure DrawsUnshared (c : Catalog) (e : Event) : Prop where
  projects : ∀ row ∈ c.projects.rows, row.tenantId ≠ e.call.ctx.tenantId →
    row.id ∉ drawnIds e.call
  grants : ∀ row ∈ c.grants.rows, row.tenantId ≠ e.call.ctx.tenantId → row.id ∉ drawnIds e.call
  folders : ∀ row ∈ c.folders.rows, row.tenantId ≠ e.call.ctx.tenantId → row.id ∉ drawnIds e.call
  resources : ∀ row ∈ c.resources.rows, row.tenantId ≠ e.call.ctx.tenantId →
    row.id ∉ drawnIds e.call

/-- No other tenant has used the scope and the idempotency key of the operation. -/
def KeyUnshared (env : Environment) (c : Catalog) (e : Event) : Prop :=
  ∀ row ∈ c.idempotency.rows, row.tenantId ≠ e.call.ctx.tenantId → row.id ∉ storedKeys env e

/-- The condition on an operation of the tenant. -/
def Unshared (env : Environment) (tenant : String) (c : Catalog) (e : Event) : Prop :=
  e.call.ctx.tenantId = tenant → DrawsUnshared c e ∧ KeyUnshared env c e

def Event.isOf (tenant : String) (e : Event) : Bool := e.call.ctx.tenantId = tenant

/-- The catalog after the operations, newest first. -/
def catalogAfter (env : Environment) (es : List Event) : Catalog :=
  es.foldr (fun e c => after env c e) Catalog.empty

/-- What the operations of the tenant were answered, newest first. -/
def outcomes (env : Environment) (tenant : String) : List Event → List (Checked Mapping)
  | [] => []
  | e :: earlier =>
    if e.isOf tenant then answer env (catalogAfter env earlier) e :: outcomes env tenant earlier
    else outcomes env tenant earlier

namespace SameTenant

/-- Only the other catalog took an operation, of another tenant. -/
theorem of_tenantStep {other : String} (h : SameTenant tenant ids keys c c'')
    (hstep : TenantStep other c c') (hne : tenant ≠ other) : SameTenant tenant ∅ ∅ c' c'' :=
  ⟨h.projects.of_othersKept hstep.projects hne, h.grants.of_othersKept hstep.grants hne,
    h.folders.of_othersKept hstep.folders hne, h.resources.of_othersKept hstep.resources hne,
    h.favorites.of_othersKept hstep.favorites hne,
    h.idempotency.of_othersKept hstep.idempotency hne⟩

theorem forget (h : SameTenant tenant ids keys c c') : SameTenant tenant ∅ ∅ c c' :=
  ⟨.of_own h.projects.own, .of_own h.grants.own, .of_own h.folders.own, .of_own h.resources.own,
    .of_own h.favorites.own, .of_own h.idempotency.own⟩

/-- An operation of the tenant, where the other catalog was written by the tenant alone. -/
theorem unshared {e : Event} (h : SameTenant e.call.ctx.tenantId ∅ ∅ c c')
    (hdraws : DrawsUnshared c e) (hkey : KeyUnshared env c e)
    (halone : TenantStep e.call.ctx.tenantId Catalog.empty c') :
    SameTenant e.call.ctx.tenantId (drawnIds e.call) (storedKeys env e) c c' where
  projects := ⟨h.projects.own, hdraws.projects, fun _ hrow hne =>
    absurd (halone.projects.owner_eq hrow) hne⟩
  grants := ⟨h.grants.own, hdraws.grants, fun _ hrow hne =>
    absurd (halone.grants.owner_eq hrow) hne⟩
  folders := ⟨h.folders.own, hdraws.folders, fun _ hrow hne =>
    absurd (halone.folders.owner_eq hrow) hne⟩
  resources := ⟨h.resources.own, hdraws.resources, fun _ hrow hne =>
    absurd (halone.resources.owner_eq hrow) hne⟩
  favorites := h.favorites
  idempotency := ⟨h.idempotency.own, hkey, fun _ hrow hne =>
    absurd (halone.idempotency.owner_eq hrow) hne⟩

end SameTenant

/-- **The operations of others leave a tenant's rows alone**, in every table and after any history. -/
theorem sameTenant_of_others {es later : List Event} (h : ∀ e ∈ later, e.isOf tenant = false) :
    SameTenant tenant ∅ ∅ (catalogAfter env (later ++ es)) (catalogAfter env es) := by
  induction later with
  | nil => exact ⟨.of_own rfl, .of_own rfl, .of_own rfl, .of_own rfl, .of_own rfl, .of_own rfl⟩
  | cons e later ih =>
    have hother : e.call.ctx.tenantId ≠ tenant := of_decide_eq_false (h e List.mem_cons_self)
    exact (ih fun e he => h e (List.mem_cons_of_mem _ he)).of_tenantStep
      (tenantStep_after env _ e) hother.symm

theorem favoritesOwned_catalogAfter (es : List Event) :
    FavoritesOwned (catalogAfter env es) := by
  induction es with
  | nil => exact ⟨fun _ hrow => absurd hrow List.not_mem_nil, fun _ hrow =>
      absurd hrow List.not_mem_nil⟩
  | cons e earlier ih => exact (tenantStep_after env _ e).favoritesOwned ih

/-- The operations of a tenant alone write rows of that tenant alone. -/
theorem tenantStep_alone {es : List Event} (h : ∀ e ∈ es, e.isOf tenant = true) :
    TenantStep tenant Catalog.empty (catalogAfter env es) := by
  induction es with
  | nil => exact .refl _
  | cons e earlier ih =>
    have hown : e.call.ctx.tenantId = tenant := of_decide_eq_true (h e List.mem_cons_self)
    exact .trans _ _ _ (ih fun e he => h e (List.mem_cons_of_mem _ he))
      (hown ▸ tenantStep_after env _ e)

theorem catalogAfter_of_run {C : Catalog → Event → Prop} {es : List Event}
    (h : Run (next env) C Catalog.empty es c) : catalogAfter env es = c := by
  induction h with
  | start => rfl
  | step _ _ hnext ih =>
    rw [catalogAfter, List.foldr_cons, ← catalogAfter, ih]
    exact Option.some.inj hnext

/-- **A run and the run of the tenant's operations alone** answer them alike. -/
theorem outcomes_alone {es : List Event}
    (h : Run (next env) (Unshared env tenant) Catalog.empty es c) :
    SameTenant tenant ∅ ∅ c (catalogAfter env (es.filter (Event.isOf tenant))) ∧
      outcomes env tenant es = outcomes env tenant (es.filter (Event.isOf tenant)) := by
  induction h with
  | start => exact ⟨⟨.of_own rfl, .of_own rfl, .of_own rfl, .of_own rfl, .of_own rfl, .of_own rfl⟩,
      rfl⟩
  | @step earlier s t e hrun hC hnext ih =>
    obtain ⟨hsame, houtcomes⟩ := ih
    obtain rfl := Option.some.inj hnext
    have hs := catalogAfter_of_run hrun
    by_cases hown : e.call.ctx.tenantId = tenant
    · subst hown
      have hmine : e.isOf e.call.ctx.tenantId = true := decide_eq_true rfl
      obtain ⟨hdraws, hkey⟩ := hC rfl
      have halone : TenantStep e.call.ctx.tenantId Catalog.empty
          (catalogAfter env (earlier.filter (Event.isOf e.call.ctx.tenantId))) :=
        tenantStep_alone fun x hx => (List.mem_filter.mp hx).2
      have hready := hsame.unshared hdraws hkey halone
      have hagree := agree_handle hready (hs ▸ favoritesOwned_catalogAfter earlier)
        (favoritesOwned_catalogAfter _)
      obtain ⟨hanswer, hafter⟩ := hagree.attempt hready
      rw [List.filter_cons_of_pos hmine]
      refine ⟨hafter.forget, ?_⟩
      rw [outcomes, outcomes, if_pos hmine, if_pos hmine, hs, houtcomes]
      exact congrArg (· :: _) hanswer
    · have hforeign : ¬ e.isOf tenant = true := fun h => hown (of_decide_eq_true h)
      rw [List.filter_cons_of_neg hforeign]
      refine ⟨hsame.of_tenantStep (tenantStep_after env s e) (Ne.symm hown), ?_⟩
      rw [outcomes, if_neg hforeign, houtcomes]

/-- **Two runs with the same operations of a tenant answer them alike**, if each of them draws fresh
identifiers and no other tenant has used its scope and idempotency key before. -/
theorem outcomes_eq_of_run {es es' : List Event}
    (h : Run (next env) (Unshared env tenant) Catalog.empty es c)
    (h' : Run (next env) (Unshared env tenant) Catalog.empty es' c')
    (hsame : es.filter (Event.isOf tenant) = es'.filter (Event.isOf tenant)) :
    outcomes env tenant es = outcomes env tenant es' := by
  rw [(outcomes_alone h).2, (outcomes_alone h').2, hsame]

/-! ### Two tenants and one idempotency key -/

/-- The identifier is none that a call draws with `uuid`. -/
def avoids (uuid : Uuid) (id : String) : Bool :=
  [s!"project_{uuid.hex}", s!"project_grant_{uuid.hex}", s!"folder_{uuid.hex}",
    s!"resource_{uuid.hex}"].all (id ≠ ·)

/-- No row of another tenant has an identifier that a call draws with `uuid`. -/
def avoidsAll (uuid : Uuid) (ctx : RequestContext) (c : Catalog) : Bool :=
  (c.projects.rows.all fun row => row.tenantId = ctx.tenantId || avoids uuid row.id) &&
    (c.grants.rows.all fun row => row.tenantId = ctx.tenantId || avoids uuid row.id) &&
    (c.folders.rows.all fun row => row.tenantId = ctx.tenantId || avoids uuid row.id) &&
    c.resources.rows.all fun row => row.tenantId = ctx.tenantId || avoids uuid row.id

theorem not_mem_drawnIds {uuid : Uuid} {owner id : String}
    (h : (decide (owner = ctx.tenantId) || avoids uuid id) = true) (hne : owner ≠ ctx.tenantId) :
    id ∉ drawnIds (callWith uuid ctx) := by
  simp only [avoids, List.all_cons, List.all_nil, Bool.and_true, Bool.and_eq_true, Bool.or_eq_true,
    decide_eq_true_eq] at h
  obtain ⟨hproject, hgrant, hfolder, hresource⟩ := h.resolve_left hne
  rintro ((hid | hid | hid) | ⟨n, hid⟩)
  · exact hproject hid
  · exact hgrant hid
  · exact hfolder hid
  · exact hresource hid.symm

theorem drawsUnshared_of_avoidsAll {uuid : Uuid} {operation : Operation}
    (h : avoidsAll uuid ctx c = true) : DrawsUnshared c ⟨callWith uuid ctx, operation⟩ := by
  rw [avoidsAll, Bool.and_eq_true, Bool.and_eq_true, Bool.and_eq_true] at h
  obtain ⟨⟨⟨hprojects, hgrants⟩, hfolders⟩, hresources⟩ := h
  exact ⟨fun row hrow => not_mem_drawnIds (List.all_eq_true.mp hprojects row hrow),
    fun row hrow => not_mem_drawnIds (List.all_eq_true.mp hgrants row hrow),
    fun row hrow => not_mem_drawnIds (List.all_eq_true.mp hfolders row hrow),
    fun row hrow => not_mem_drawnIds (List.all_eq_true.mp hresources row hrow)⟩

def otherTenantOwner : RequestContext := ⟨"tenant-other", "user-other", []⟩

/-- A tenant makes a project. -/
def firstProject : Event :=
  ⟨callWith zeroUuid projectOwner, .request "first" (.createProject "Sales" none [])⟩

/-- Another tenant makes a project, under the same idempotency key. -/
def foreignProject : Event :=
  ⟨callWith oneUuid otherTenantOwner, .request "first" (.createProject "Finance" none [])⟩

theorem sameTenant_foreignProject : SameTenant "tenant-demo" ∅ ∅ (catalogAfter smallDatabase
    [foreignProject, firstProject]) (catalogAfter smallDatabase [firstProject]) :=
  @sameTenant_of_others _ _ [firstProject] [foreignProject] (by decide +kernel)

/-- The tenant makes a folder in its project. -/
def firstFolder : Event :=
  ⟨callWith zeroUuid projectOwner, .request "folder" (.createFolder zeroProject "Reports" none [])⟩

theorem unshared_firstProject :
    Unshared smallDatabase "tenant-demo" Catalog.empty firstProject := fun _ =>
  ⟨drawsUnshared_of_avoidsAll rfl, fun _ hrow => absurd hrow List.not_mem_nil⟩

theorem unshared_foreignProject :
    Unshared smallDatabase "tenant-demo" c foreignProject :=
  fun htenant => absurd htenant (by simp [foreignProject, callWith, otherTenantOwner])

/-- No record has the identifier of the one that the folder's request stores. -/
def avoidsFolderKey (c : Catalog) : Bool :=
  c.idempotency.rows.all (·.id ≠ idempotencyId "projects.folders.create" "folder")

theorem unshared_firstFolder (hdraws : DrawsUnshared c firstFolder)
    (hkey : avoidsFolderKey c = true) : Unshared smallDatabase "tenant-demo" c firstFolder := by
  refine fun _ => ⟨hdraws, ?_⟩
  rintro row hrow - ⟨key, request, m, hop, hm, hid⟩
  obtain ⟨rfl, rfl⟩ := Operation.request.inj hop
  simp only [mutationOf, Except.bind_eq_ok_iff, Except.pure_eq_ok_iff] at hm
  obtain ⟨name, -, rfl⟩ := hm
  exact of_decide_eq_true (List.all_eq_true.mp hkey row hrow) hid

/-- What the folder's request asks of the catalog it meets. -/
def readyForFolder (c : Catalog) : Bool :=
  avoidsAll zeroUuid projectOwner c && avoidsFolderKey c

theorem unshared_of_ready (h : readyForFolder c = true) :
    Unshared smallDatabase "tenant-demo" c firstFolder := by
  obtain ⟨hdraws, hkey⟩ := Bool.and_eq_true_iff.mp h
  exact unshared_firstFolder (drawsUnshared_of_avoidsAll hdraws) hkey

theorem ready_with_and_without :
    readyForFolder (catalogAfter smallDatabase [foreignProject, firstProject]) = true ∧
      readyForFolder (catalogAfter smallDatabase [firstProject]) = true := by
  decide +kernel

theorem filter_foreign :
    [firstFolder, foreignProject, firstProject].filter (Event.isOf "tenant-demo") =
      [firstFolder, firstProject].filter (Event.isOf "tenant-demo") := rfl

/-- Another tenant's project changes nothing for the folder. -/
theorem outcomes_foreignProject :
    outcomes smallDatabase "tenant-demo" [firstFolder, foreignProject, firstProject] =
      outcomes smallDatabase "tenant-demo" [firstFolder, firstProject] := by
  have hfirst : Run (next smallDatabase) (Unshared smallDatabase "tenant-demo") Catalog.empty
      [firstProject] (catalogAfter smallDatabase [firstProject]) :=
    Run.start.step unshared_firstProject rfl
  exact outcomes_eq_of_run
    ((hfirst.step unshared_foreignProject rfl).step (unshared_of_ready ready_with_and_without.1) rfl)
    (hfirst.step (unshared_of_ready ready_with_and_without.2) rfl) filter_foreign

/-- The second project draws what nobody has, and is accepted alone only. -/
theorem accepted_alone :
    avoidsAll zeroUuid projectOwner (catalogAfter smallDatabase [foreignProject]) = true ∧
      (outcomes smallDatabase "tenant-demo" [firstProject, foreignProject]).all (·.isOk) = false ∧
      (outcomes smallDatabase "tenant-demo" [firstProject]).all (·.isOk) = true := by
  decide +kernel

/-- **Two tenants that use one idempotency key**: the second is refused, though every operation
draws fresh identifiers. -/
theorem not_outcomes_eq : ∃ es es' c c',
    Run (next smallDatabase) DrawsUnshared Catalog.empty es c ∧
      Run (next smallDatabase) DrawsUnshared Catalog.empty es' c' ∧
      es.filter (Event.isOf "tenant-demo") = es'.filter (Event.isOf "tenant-demo") ∧
      outcomes smallDatabase "tenant-demo" es ≠ outcomes smallDatabase "tenant-demo" es' := by
  obtain ⟨havoids, hrefused, haccepted⟩ := accepted_alone
  refine ⟨[firstProject, foreignProject], [firstProject], _, _,
    (Run.start.step (drawsUnshared_of_avoidsAll rfl) rfl).step
      (drawsUnshared_of_avoidsAll havoids) rfl,
    Run.start.step (drawsUnshared_of_avoidsAll rfl) rfl, rfl, fun heq => ?_⟩
  rw [heq, haccepted] at hrefused
  exact absurd hrefused (by decide)

end FoundryLite.ResourceCatalog
