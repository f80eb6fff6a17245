import FoundryLite.Library.Table
import FoundryLite.Library.Transaction
import FoundryLite.Library.Text
import FoundryLite.Serialiser
import FoundryLite.Runtime.StatusCas

/-!
# The tables of the resource catalog

Projects with grants, folders inside a project, and the resources placed in them, for all tenants in
one database. Every lookup is qualified by the tenant of the request. The primary keys are not: a
primary key is unique over all tenants, and the one of an idempotency record is made of the scope
and the key of a request.
-/

namespace FoundryLite.ResourceCatalog

open FoundryLite.Runtime (StatusTransition casStatusUpdate)

/-! ### Rows -/

inductive ProjectRole where
  | discoverer
  | viewer
  | editor
  | owner
  deriving DecidableEq

def ProjectRole.text : ProjectRole → String
  | discoverer => "discoverer"
  | viewer => "viewer"
  | editor => "editor"
  | owner => "owner"

inductive PrincipalType where
  | user
  | role
  | group
  deriving DecidableEq

def PrincipalType.text : PrincipalType → String
  | user => "user"
  | role => "role"
  | group => "group"

inductive CatalogStatus where
  | active
  | trashed
  deriving DecidableEq

def CatalogStatus.text : CatalogStatus → String
  | active => "active"
  | trashed => "trashed"

structure ProjectRow where
  id : String
  tenantId : String
  rid : String
  displayName : String
  description : Option String
  status : CatalogStatus
  createdByUserId : String
  metadata : Mapping
  createdAt : String
  updatedAt : String

structure GrantRow where
  id : String
  tenantId : String
  projectId : String
  principalType : PrincipalType
  principalId : String
  role : ProjectRole
  createdAt : String
  updatedAt : String

structure FolderRow where
  id : String
  tenantId : String
  rid : String
  projectId : String
  parentFolderId : Option String
  displayName : String
  status : CatalogStatus
  createdByUserId : String
  metadata : Mapping
  createdAt : String
  updatedAt : String

structure ResourceRow where
  id : String
  tenantId : String
  rid : String
  resourceType : String
  displayName : String
  projectId : String
  folderId : Option String
  sourceSurface : String
  sourceRef : String
  operationsPath : Option String
  status : CatalogStatus
  metadata : Mapping
  createdAt : String
  updatedAt : String

structure FavoriteRow where
  id : String
  tenantId : String
  resourceId : String
  actorUserId : String
  createdAt : String

structure IdempotencyRow where
  id : String
  tenantId : String
  scope : String
  idempotencyKey : String
  requestHash : String
  responsePayload : Mapping
  createdAt : String
  updatedAt : String

/-! ### Unique keys, each qualified by the tenant -/

def ProjectRow.ridKey (row : ProjectRow) : String × String := (row.tenantId, row.rid)

def GrantRow.principal (row : GrantRow) : String × String × PrincipalType × String :=
  (row.tenantId, row.projectId, row.principalType, row.principalId)

def FolderRow.ridKey (row : FolderRow) : String × String := (row.tenantId, row.rid)

def ResourceRow.ridKey (row : ResourceRow) : String × String := (row.tenantId, row.rid)

def ResourceRow.source (row : ResourceRow) : String × String × String :=
  (row.tenantId, row.sourceSurface, row.sourceRef)

def FavoriteRow.actor (row : FavoriteRow) : String × String × String :=
  (row.tenantId, row.resourceId, row.actorUserId)

def IdempotencyRow.key (row : IdempotencyRow) : String × String × String :=
  (row.tenantId, row.scope, row.idempotencyKey)

structure Catalog where
  projects : Table ProjectRow.id ProjectRow.ridKey
  grants : Table GrantRow.id GrantRow.principal
  folders : Table FolderRow.id FolderRow.ridKey
  /-- The second unique key of a resource, `ResourceRow.ridKey`, is checked by `writeResource`. -/
  resources : Table ResourceRow.id ResourceRow.source
  favorites : Table FavoriteRow.id FavoriteRow.actor
  idempotency : Table IdempotencyRow.id IdempotencyRow.key

def Catalog.empty : Catalog := ⟨∅, ∅, ∅, ∅, ∅, ∅⟩

abbrev Tx (α : Type) := Transaction FoundryLiteError Catalog α

/-- What the rules leave to the database and to the standard library. -/
structure Environment where
  /-- Whether a violated constraint leaves the transaction usable, as on SQLite. On PostgreSQL
  every later statement of the transaction is refused. -/
  survivesViolation : Bool
  /-- `ORDER BY display_name, id` under the collation of the database. -/
  orderProjects : List ProjectRow → List ProjectRow
  serialiser : Serialiser

/-! ### Reads -/

namespace Catalog

variable (c : Catalog) (tenantId : String)

def projectById (projectId : String) : Option ProjectRow :=
  c.projects.rows.find? fun row => row.tenantId = tenantId && row.id = projectId

def listProjects (env : Environment) : List ProjectRow :=
  env.orderProjects (c.projects.rows.filter fun row => row.tenantId = tenantId && row.status = .active)

def listProjectGrants (projectId : String) : List GrantRow :=
  c.grants.rows.filter fun row => row.tenantId = tenantId && row.projectId = projectId

def folderById (folderId : String) : Option FolderRow :=
  c.folders.rows.find? fun row => row.tenantId = tenantId && row.id = folderId

def resourceById (resourceId : String) : Option ResourceRow :=
  c.resources.rows.find? fun row => row.tenantId = tenantId && row.id = resourceId

def resourceByRid (rid : String) : Option ResourceRow :=
  c.resources.rows.find? fun row => row.tenantId = tenantId && row.rid = rid

def resourceBySource (sourceSurface sourceRef : String) : Option ResourceRow :=
  c.resources.get? (tenantId, sourceSurface, sourceRef)

def idempotencyRecord (scope idempotencyKey : String) : Option IdempotencyRow :=
  c.idempotency.get? (tenantId, scope, idempotencyKey)

end Catalog

/-! ### Writes -/

/-- What an `INSERT` answers when it violates a constraint. -/
def integrityError : FoundryLiteError := databaseError "IntegrityError"

/-- The row a write reads back, which the repository expects to be there. -/
def readBack {α : Type} (what : String) (row : Option α) : Tx α :=
  Transaction.requireSome row (libraryError s!"{what} write did not return a row")

def writeProject (row : ProjectRow) : Tx Unit := do
  let projects ← Transaction.requireSome ((← get).projects.insert? row) integrityError
  modify fun c => { c with projects }

def insertProject (row : ProjectRow) : Tx ProjectRow := do
  writeProject row
  readBack "project" ((← get).projectById row.tenantId row.id)

def grantUpdate (role : ProjectRole) (updatedAt : String) :
    Table.Update GrantRow.id GrantRow.principal where
  apply row := { row with role, updatedAt }
  pk_apply _ := rfl
  uq_apply _ := rfl

/-- A principal has one grant in a project: a new one, or the one that is there with its role. -/
def writeGrant (row : GrantRow) : Option GrantRow → Tx Unit
  | none => do
    let grants ← Transaction.requireSome ((← get).grants.insert? row) integrityError
    modify fun c => { c with grants }
  | some existing =>
    modify fun c =>
      { c with grants := c.grants.updateRow existing.id (grantUpdate row.role row.updatedAt) }

def upsertProjectGrant (row : GrantRow) : Tx GrantRow := do
  writeGrant row ((← get).grants.get? row.principal)
  readBack "project grant" ((← get).grants.get? row.principal)

def writeFolder (row : FolderRow) : Tx Unit := do
  let folders ← Transaction.requireSome ((← get).folders.insert? row) integrityError
  modify fun c => { c with folders }

def insertFolder (row : FolderRow) : Tx FolderRow := do
  writeFolder row
  readBack "project folder" ((← get).folderById row.tenantId row.id)

/-- `_catalog_status_transition`. -/
def catalogStatusTransition : CatalogStatus → StatusTransition CatalogStatus
  | .trashed => ⟨[.active], .trashed⟩
  | .active => ⟨[.trashed], .active⟩

/-- Give a folder another parent. -/
def folderParentUpdate (parentFolderId : Option String) (updatedAt : String) :
    Table.Update FolderRow.id FolderRow.ridKey where
  apply row := { row with parentFolderId, updatedAt }
  pk_apply _ := rfl
  uq_apply _ := rfl

/-- The conditional update of a folder's status: a row from which the transition does not start
stays as it is. -/
def folderStatusUpdate (status : CatalogStatus) (updatedAt : String) :
    Table.Update FolderRow.id FolderRow.ridKey where
  apply row := (casStatusUpdate (catalogStatusTransition status) row.status true fun status =>
    { row with status, updatedAt }).getD row
  pk_apply row := by
    unfold casStatusUpdate
    split_ifs <;> rfl
  uq_apply row := by
    unfold casStatusUpdate
    split_ifs <;> rfl

/-- `update_folder`: the statement is qualified by tenant and identifier. -/
def updateFolder (tenantId folderId : String) (u : Table.Update FolderRow.id FolderRow.ridKey) :
    Tx (Option FolderRow) := do
  modify fun c => { c with
    folders := c.folders.modify (fun row => row.tenantId = tenantId && row.id = folderId) u }
  pure ((← get).folderById tenantId folderId)

def writeResource (row : ResourceRow) : Tx Unit := do
  Transaction.require ((← get).resources.rows.all fun other => other.ridKey ≠ row.ridKey)
    integrityError
  let resources ← Transaction.requireSome ((← get).resources.insert? row) integrityError
  modify fun c => { c with resources }

/-- What an upsert writes over a catalogued resource. -/
def resourceUpsertUpdate (record : ResourceRow) :
    Table.Update ResourceRow.id ResourceRow.source where
  apply row := { row with
    resourceType := record.resourceType
    displayName := record.displayName
    projectId := record.projectId
    folderId := record.folderId
    operationsPath := record.operationsPath
    metadata := record.metadata
    updatedAt := record.updatedAt }
  pk_apply _ := rfl
  uq_apply _ := rfl

/-- `upsert_resource`: a resource is known by its surface and its reference there. -/
def upsertResource (record : ResourceRow) : Tx ResourceRow := do
  match (← get).resourceBySource record.tenantId record.sourceSurface record.sourceRef with
  | none =>
    writeResource record
    readBack "resource" ((← get).resourceByRid record.tenantId record.rid)
  | some existing =>
    modify fun c =>
      { c with resources := c.resources.updateRow existing.id (resourceUpsertUpdate record) }
    readBack "resource" ((← get).resourceByRid record.tenantId existing.rid)

/-- Place a resource elsewhere. -/
def resourcePlacementUpdate (projectId : String) (folderId : Option String) (updatedAt : String) :
    Table.Update ResourceRow.id ResourceRow.source where
  apply row := { row with projectId, folderId, updatedAt }
  pk_apply _ := rfl
  uq_apply _ := rfl

/-- The conditional update of a resource's status. -/
def resourceStatusUpdate (status : CatalogStatus) (updatedAt : String) :
    Table.Update ResourceRow.id ResourceRow.source where
  apply row := (casStatusUpdate (catalogStatusTransition status) row.status true fun status =>
    { row with status, updatedAt }).getD row
  pk_apply row := by
    unfold casStatusUpdate
    split_ifs <;> rfl
  uq_apply row := by
    unfold casStatusUpdate
    split_ifs <;> rfl

def updateResource (tenantId resourceId : String)
    (u : Table.Update ResourceRow.id ResourceRow.source) : Tx (Option ResourceRow) := do
  modify fun c => { c with
    resources := c.resources.modify (fun row => row.tenantId = tenantId && row.id = resourceId) u }
  pure ((← get).resourceById tenantId resourceId)

/-- The identifier of a favourite. -/
def favoriteId (resourceId actorUserId : String) : String := s!"favorite_{resourceId}_{actorUserId}"

def favoriteRow (tenantId resourceId actorUserId now : String) : FavoriteRow :=
  ⟨favoriteId resourceId actorUserId, tenantId, resourceId, actorUserId, now⟩

/-- `add_favorite`: a favourite that is there already violates a constraint, and the violation is
passed over. -/
def addFavorite (env : Environment) (tenantId resourceId actorUserId now : String) : Tx Unit := do
  match (← get).favorites.insert? (favoriteRow tenantId resourceId actorUserId now) with
  | some favorites => modify fun c => { c with favorites }
  | none => Transaction.require env.survivesViolation (databaseError "InFailedSqlTransaction")

def removeFavorite (tenantId resourceId actorUserId : String) : Tx Unit :=
  modify fun c => { c with
    favorites := c.favorites.deleteWhere fun row =>
      row.tenantId = tenantId && row.resourceId = resourceId && row.actorUserId = actorUserId }

/-- The identifier of an idempotency record. -/
def idempotencyId (scope idempotencyKey : String) : String :=
  s!"resource_idem_{scope}_{idempotencyKey}"

def storeIdempotencyRecord (tenantId scope idempotencyKey requestHash : String)
    (responsePayload : Mapping) (now : String) : Tx Unit := do
  let row : IdempotencyRow := ⟨idempotencyId scope idempotencyKey, tenantId, scope, idempotencyKey,
    requestHash, responsePayload, now, now⟩
  let idempotency ← Transaction.requireSome ((← get).idempotency.insert? row) integrityError
  modify fun c => { c with idempotency }

end FoundryLite.ResourceCatalog
