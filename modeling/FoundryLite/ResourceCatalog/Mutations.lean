import FoundryLite.ResourceCatalog.Tables

/-!
# Mutations of the resource catalog

Every mutation is one transaction. A request whose idempotency key is known is answered from the
record, or refused when the request differs; any other is checked, written and recorded. Access
rests on the grants of a project: an administrator owns every project, and an actor has the best
role that a grant to the user or to one of the user's roles gives.

The identifiers that a mutation draws are an input of the call, as is the list of work products that
a reconciliation finds in the other tables.
-/

namespace FoundryLite.ResourceCatalog

/-! ### Calls -/

structure RequestContext where
  tenantId : String
  actorUserId : String
  roles : List String

def RequestContext.hasRole (ctx : RequestContext) (role : String) : Bool := role ∈ ctx.roles

/-- The hexadecimal form of a version 4 identifier. -/
structure Uuid where
  hex : String
  length_hex : hex.length = 32
  deriving DecidableEq

/-- `str` of the identifier. -/
def Uuid.text (uuid : Uuid) : String :=
  "-".intercalate ([(0, 8), (8, 4), (12, 4), (16, 4), (20, 12)].map fun (start, length) =>
    String.ofList ((uuid.hex.toList.drop start).take length))

/-- The identifiers a mutation draws, each used for one row. Those of resources are counted, as a
reconciliation may insert several. -/
structure Draws where
  project : Uuid
  projectRid : Uuid
  grant : Uuid
  folder : Uuid
  folderRid : Uuid
  resource : Nat → Uuid
  resourceRid : Nat → Uuid

/-- A work product that other tables of the tenant hold. -/
structure ResourceCandidate where
  resourceType : String
  displayName : String
  sourceSurface : String
  sourceRef : String
  operationsPath : Option String
  metadata : Mapping

/-- What a mutation is given besides its own arguments. -/
structure Call where
  ctx : RequestContext
  now : String
  draws : Draws
  /-- `existing_resource_candidates`, read within the transaction. -/
  candidates : List ResourceCandidate

def optionalJson : Option String → Json
  | none => .null
  | some text => .str text

/-- `require_text`. -/
def requireText (value field : String) : Checked String := do
  let cleaned := Text.strip value
  rejectIf (cleaned = "") s!"{field} is required" [("field", .str field)]
  pure cleaned

/-- `_optional_text` on a value that is text if it is there. -/
def optionalText (value : Option String) : Option String :=
  (value.map Text.strip).filter (· ≠ "")

/-! ### Records -/

/-- `_rid`. -/
def resourceIdentifier (resourceType : String) (uuid : Uuid) : String :=
  let safe := (Text.strip resourceType).map fun c => if c = '_' then '-' else c
  let kind := if safe = "" then "resource" else safe
  s!"ri.foundry-lite.{kind}.{uuid.text}"

section Records

variable (call : Call)

def projectRecord (displayName : String) (description : Option String) (metadata : Mapping) :
    ProjectRow where
  id := s!"project_{call.draws.project.hex}"
  tenantId := call.ctx.tenantId
  rid := resourceIdentifier "project" call.draws.projectRid
  displayName := displayName
  description := description
  status := .active
  createdByUserId := call.ctx.actorUserId
  metadata := metadata
  createdAt := call.now
  updatedAt := call.now

def grantRecord (projectId : String) (principalType : PrincipalType) (principalId : String)
    (role : ProjectRole) : GrantRow where
  id := s!"project_grant_{call.draws.grant.hex}"
  tenantId := call.ctx.tenantId
  projectId := projectId
  principalType := principalType
  principalId := principalId
  role := role
  createdAt := call.now
  updatedAt := call.now

def ownerGrantRecord (projectId : String) : GrantRow :=
  grantRecord call projectId .user call.ctx.actorUserId .owner

def folderRecord (projectId : String) (parentFolderId : Option String) (displayName : String)
    (metadata : Mapping) : FolderRow where
  id := s!"folder_{call.draws.folder.hex}"
  tenantId := call.ctx.tenantId
  rid := resourceIdentifier "folder" call.draws.folderRid
  projectId := projectId
  parentFolderId := parentFolderId
  displayName := displayName
  status := .active
  createdByUserId := call.ctx.actorUserId
  metadata := metadata
  createdAt := call.now
  updatedAt := call.now

def resourceRecord (n : Nat) (candidate : ResourceCandidate) (projectId : String)
    (folderId : Option String) : ResourceRow where
  id := s!"resource_{(call.draws.resource n).hex}"
  tenantId := call.ctx.tenantId
  rid := resourceIdentifier candidate.resourceType (call.draws.resourceRid n)
  resourceType := candidate.resourceType
  displayName := candidate.displayName
  projectId := projectId
  folderId := folderId
  sourceSurface := candidate.sourceSurface
  sourceRef := candidate.sourceRef
  operationsPath := candidate.operationsPath
  status := .active
  metadata := candidate.metadata
  createdAt := call.now
  updatedAt := call.now

end Records

/-! ### Payloads -/

def projectPayload (row : ProjectRow) (role : Option ProjectRole) : Mapping :=
  [("id", .str row.id), ("rid", .str row.rid), ("displayName", .str row.displayName),
   ("description", optionalJson row.description), ("status", .str row.status.text),
   ("createdByUserId", .str row.createdByUserId), ("metadata", .obj row.metadata),
   ("role", optionalJson (role.map ProjectRole.text)), ("createdAt", .str row.createdAt),
   ("updatedAt", .str row.updatedAt)]

def grantPayload (row : GrantRow) : Mapping :=
  [("id", .str row.id), ("projectId", .str row.projectId),
   ("principalType", .str row.principalType.text), ("principalId", .str row.principalId),
   ("role", .str row.role.text), ("createdAt", .str row.createdAt),
   ("updatedAt", .str row.updatedAt)]

def folderPayload (row : FolderRow) : Mapping :=
  [("id", .str row.id), ("rid", .str row.rid), ("projectId", .str row.projectId),
   ("parentFolderId", optionalJson row.parentFolderId), ("displayName", .str row.displayName),
   ("status", .str row.status.text), ("createdByUserId", .str row.createdByUserId),
   ("metadata", .obj row.metadata), ("createdAt", .str row.createdAt),
   ("updatedAt", .str row.updatedAt)]

def resourcePayload (row : ResourceRow) (isFavorite : Bool := false) : Mapping :=
  [("id", .str row.id), ("rid", .str row.rid), ("resourceType", .str row.resourceType),
   ("displayName", .str row.displayName), ("projectId", .str row.projectId),
   ("folderId", optionalJson row.folderId), ("sourceSurface", .str row.sourceSurface),
   ("sourceRef", .str row.sourceRef), ("operationsPath", optionalJson row.operationsPath),
   ("status", .str row.status.text), ("metadata", .obj row.metadata),
   ("isFavorite", .bool isFavorite), ("createdAt", .str row.createdAt),
   ("updatedAt", .str row.updatedAt)]

/-! ### Access -/

def ProjectRole.rank : ProjectRole → Nat
  | discoverer => 1
  | viewer => 2
  | editor => 3
  | owner => 4

/-- `_rank`: no role ranks below every role. -/
def rank : Option ProjectRole → Nat
  | none => 0
  | some role => role.rank

/-- `_grant_matches_actor`: grants to groups are stored and not resolved. -/
def grantMatchesActor (ctx : RequestContext) (grant : GrantRow) : Bool :=
  match grant.principalType with
  | .user => grant.principalId = ctx.actorUserId
  | .role => grant.principalId ∈ ctx.roles
  | .group => false

/-- A grant that matches the actor and is better than the best so far. -/
def betterRole (ctx : RequestContext) (best : Option ProjectRole) (grant : GrantRow) :
    Option ProjectRole :=
  if grantMatchesActor ctx grant && rank best < grant.role.rank then some grant.role else best

def actorProjectRole (ctx : RequestContext) (grants : List GrantRow) : Option ProjectRole :=
  if ctx.hasRole "admin" then some .owner else grants.foldl (betterRole ctx) none

def projectRole (c : Catalog) (ctx : RequestContext) (projectId : String) : Option ProjectRole :=
  actorProjectRole ctx (c.listProjectGrants ctx.tenantId projectId)

def requireProjectRole (role : Option ProjectRole) (minimum : ProjectRole) (projectId : String) :
    Tx Unit :=
  Transaction.require (minimum.rank ≤ rank role) (permissionDenied "project permission denied"
    [("project_id", .str projectId), ("required_role", .str minimum.text),
     ("actual_role", .str ((role.map ProjectRole.text).getD "none"))])

/-- `require_project`: the project is there and the actor has the role. -/
def requireProject (ctx : RequestContext) (projectId : String) (minimum : ProjectRole) :
    Tx ProjectRow := do
  let c ← get
  let project ← Transaction.requireSome (c.projectById ctx.tenantId projectId)
    (notFound "project not found" [("project_id", .str projectId)])
  requireProjectRole (projectRole c ctx projectId) minimum projectId
  pure project

def folderNotFound (folderId : String) : FoundryLiteError :=
  notFound "folder not found" [("folder_id", .str folderId)]

def resourceNotFound (rid : String) : FoundryLiteError :=
  notFound "resource not found" [("rid", .str rid)]

def folderById (ctx : RequestContext) (folderId : String) : Tx FolderRow := do
  Transaction.requireSome ((← get).folderById ctx.tenantId folderId) (folderNotFound folderId)

def resourceByRid (ctx : RequestContext) (rid : String) : Tx ResourceRow := do
  Transaction.requireSome ((← get).resourceByRid ctx.tenantId rid) (resourceNotFound rid)

/-- `require_parent_folder`: a folder that is named is an active folder of the project. -/
def requireParentFolder (ctx : RequestContext) (projectId : String) :
    Option String → Tx Unit
  | none => pure ()
  | some folderId => do
    let folder ← folderById ctx folderId
    Transaction.require (folder.projectId = projectId && folder.status = .active)
      ⟨.validationFailed, "folder does not belong to active project tree",
        [("folder_id", .str folderId)]⟩

/-- The folder a request is about has to be one of the project. -/
def projectFolder (ctx : RequestContext) (projectId folderId : String) : Tx FolderRow := do
  let folder ← folderById ctx folderId
  Transaction.require (folder.projectId = projectId)
    ⟨.validationFailed, "folder does not belong to project", [("folder_id", .str folderId)]⟩
  pure folder

/-! ### Writers -/

section Writers

variable (env : Environment) (call : Call)

def personalProject (c : Catalog) (ctx : RequestContext) : Option ProjectRow :=
  (c.listProjects ctx.tenantId env).find? fun row =>
    row.createdByUserId = ctx.actorUserId && row.metadata.lookup "kind" = some (.str "personal")

/-- A new project, owned by the actor. -/
def newProject (displayName : String) (description : Option String) (metadata : Mapping) :
    Tx ProjectRow := do
  let project ← insertProject (projectRecord call displayName description metadata)
  let _ ← upsertProjectGrant (ownerGrantRecord call project.id)
  pure project

/-- `resource_project_id`: the named project, whether it is there or not, or the actor's own. -/
def resourceProjectId (projectId : Option String) : Tx String :=
  match optionalText projectId with
  | some value => pure value
  | none => do
    match personalProject env (← get) call.ctx with
    | some personal => pure personal.id
    | none => do
      let project ← newProject call s!"{call.ctx.actorUserId} Home" none
        [("kind", .str "personal")]
      pure project.id

def createProjectMutation (displayName : String) (description : Option String)
    (metadata : Mapping) : Tx Mapping := do
  let project ← newProject call displayName description metadata
  pure [("project", .obj (projectPayload project (some .owner)))]

def upsertGrantMutation (projectId : String) (principalType : PrincipalType) (principalId : String)
    (role : ProjectRole) : Tx Mapping := do
  let _ ← requireProject call.ctx projectId .owner
  let row ← upsertProjectGrant (grantRecord call projectId principalType principalId role)
  pure [("grant", .obj (grantPayload row))]

def createFolderMutation (projectId displayName : String) (parentFolderId : Option String)
    (metadata : Mapping) : Tx Mapping := do
  let _ ← requireProject call.ctx projectId .editor
  requireParentFolder call.ctx projectId parentFolderId
  let row ← insertFolder (folderRecord call projectId parentFolderId displayName metadata)
  pure [("folder", .obj (folderPayload row))]

def moveFolderMutation (projectId folderId : String) (parentFolderId : Option String) :
    Tx Mapping := do
  let _ ← requireProject call.ctx projectId .editor
  let _ ← projectFolder call.ctx projectId folderId
  requireParentFolder call.ctx projectId parentFolderId
  let row ← updateFolder call.ctx.tenantId folderId (folderParentUpdate parentFolderId call.now)
  let folder ← Transaction.requireSome row (folderNotFound folderId)
  pure [("folder", .obj (folderPayload folder))]

def setFolderStatusMutation (projectId folderId : String) (status : CatalogStatus) :
    Tx Mapping := do
  let _ ← requireProject call.ctx projectId .editor
  let _ ← projectFolder call.ctx projectId folderId
  let row ← updateFolder call.ctx.tenantId folderId (folderStatusUpdate status call.now)
  let folder ← Transaction.requireSome row (folderNotFound folderId)
  pure [("folder", .obj (folderPayload folder))]

def registerResourceMutation (resource : ResourceCandidate) (projectId folderId : Option String) :
    Tx Mapping := do
  let projectId ← resourceProjectId env call projectId
  let _ ← requireProject call.ctx projectId .editor
  let folderId := optionalText folderId
  requireParentFolder call.ctx projectId folderId
  let row ← upsertResource (resourceRecord call 0
    { resource with operationsPath := optionalText resource.operationsPath } projectId folderId)
  pure [("resource", .obj (resourcePayload row))]

def moveResourceMutation (rid projectId : String) (folderId : Option String) : Tx Mapping := do
  let before ← resourceByRid call.ctx rid
  let _ ← requireProject call.ctx before.projectId .editor
  let _ ← requireProject call.ctx projectId .editor
  requireParentFolder call.ctx projectId folderId
  let row ← updateResource call.ctx.tenantId before.id
    (resourcePlacementUpdate projectId folderId call.now)
  let resource ← Transaction.requireSome row (resourceNotFound rid)
  pure [("resource", .obj (resourcePayload resource))]

def setResourceStatusMutation (rid : String) (status : CatalogStatus) : Tx Mapping := do
  let before ← resourceByRid call.ctx rid
  let _ ← requireProject call.ctx before.projectId .editor
  let row ← updateResource call.ctx.tenantId before.id (resourceStatusUpdate status call.now)
  let resource ← Transaction.requireSome row (resourceNotFound rid)
  pure [("resource", .obj (resourcePayload resource))]

def favoriteResourceMutation (rid : String) (shouldAdd : Bool) : Tx Mapping := do
  let row ← resourceByRid call.ctx rid
  let _ ← requireProject call.ctx row.projectId .viewer
  if shouldAdd then addFavorite env call.ctx.tenantId row.id call.ctx.actorUserId call.now
  else removeFavorite call.ctx.tenantId row.id call.ctx.actorUserId
  pure [("resource", .obj (resourcePayload row shouldAdd))]

/-- `_upsert_candidate`, of the `n`th candidate. -/
def upsertCandidate (projectId : String) (candidate : ResourceCandidate × Nat) : Tx ResourceRow :=
  upsertResource (resourceRecord call candidate.2 candidate.1 projectId none)

def reconcileMutation (projectId : Option String) : Tx Mapping := do
  Transaction.require (call.ctx.hasRole "admin")
    (permissionDenied "admin role is required to reconcile resources"
      [("operation", .str "reconcile")])
  let targetProjectId ← resourceProjectId env call projectId
  let rows ← call.candidates.zipIdx.mapM (upsertCandidate call targetProjectId)
  pure [("createdOrUpdated", .int rows.length),
    ("resources", .arr (rows.map fun row => .obj (resourcePayload row)))]

/-- `upsert_work_product_resource`: the registration that the service of a work product makes within
its own transaction, in the personal project of the actor. -/
def upsertWorkProductResource (resource : ResourceCandidate) : Tx Mapping := do
  let projectId ← resourceProjectId env call none
  let row ← upsertResource (resourceRecord call 0 resource projectId none)
  pure [("resourceRid", .str row.rid)]

end Writers

/-! ### The service -/

inductive Request where
  | createProject (displayName : String) (description : Option String) (metadata : Mapping)
  | upsertProjectGrant (projectId principalType principalId role : String)
  | createFolder (projectId displayName : String) (parentFolderId : Option String)
      (metadata : Mapping)
  | moveFolder (projectId folderId : String) (parentFolderId : Option String)
  | setFolderStatus (projectId folderId : String) (status : CatalogStatus)
  | registerResource (resource : ResourceCandidate) (projectId folderId : Option String)
  | moveResource (rid projectId : String) (folderId : Option String)
  | setResourceStatus (rid : String) (status : CatalogStatus)
  | favoriteResource (rid : String) (shouldAdd : Bool)
  | reconcile (projectId : Option String)

/-- What a service method hands to `_mutation`: the scope of the idempotency key, the request that
is hashed, and the writer. -/
structure Mutation where
  scope : String
  request : Mapping
  writer : Tx Mapping

def parseProjectRole (value : String) : Checked ProjectRole := do
  let cleaned ← requireText value "role"
  match [ProjectRole.owner, .editor, .viewer, .discoverer].find? (·.text = cleaned) with
  | some role => pure role
  | none => validationFailed "invalid project role" [("role", .str value)]

def parsePrincipalType (value : String) : Checked PrincipalType := do
  let cleaned ← requireText value "principal_type"
  match [PrincipalType.user, .role, .group].find? (·.text = cleaned) with
  | some principalType => pure principalType
  | none => validationFailed "invalid project grant principal type" [("principal_type", .str value)]

/-- The verb of a status change, in the scope of its idempotency key. -/
def CatalogStatus.verb : CatalogStatus → String
  | active => "restore"
  | trashed => "trash"

/-- The service method of a request, up to the transaction. -/
def mutationOf (env : Environment) (call : Call) : Request → Checked Mutation
  | .createProject displayName description metadata => do
    let name ← requireText displayName "display_name"
    pure ⟨"projects.create",
      [("displayName", .str name), ("description", optionalJson description),
       ("metadata", .obj metadata)],
      createProjectMutation call name description metadata⟩
  | .upsertProjectGrant projectId principalType principalId role => do
    let parsedType ← parsePrincipalType principalType
    let parsedRole ← parseProjectRole role
    pure ⟨"projects.grants.upsert",
      [("projectId", .str projectId), ("principalType", .str parsedType.text),
       ("principalId", .str principalId), ("role", .str role)],
      do
        let principalId ← liftM (requireText principalId "principal_id")
        upsertGrantMutation call projectId parsedType principalId parsedRole⟩
  | .createFolder projectId displayName parentFolderId metadata => do
    let name ← requireText displayName "display_name"
    pure ⟨"projects.folders.create",
      [("projectId", .str projectId), ("displayName", .str name),
       ("parentFolderId", optionalJson parentFolderId), ("metadata", .obj metadata)],
      createFolderMutation call projectId name parentFolderId metadata⟩
  | .moveFolder projectId folderId parentFolderId =>
    pure ⟨"projects.folders.move",
      [("projectId", .str projectId), ("folderId", .str folderId),
       ("parentFolderId", optionalJson parentFolderId)],
      moveFolderMutation call projectId folderId parentFolderId⟩
  | .setFolderStatus projectId folderId status =>
    pure ⟨s!"projects.folders.{status.verb}",
      [("projectId", .str projectId), ("folderId", .str folderId), ("status", .str status.text)],
      setFolderStatusMutation call projectId folderId status⟩
  | .registerResource resource projectId folderId => do
    let resourceType ← requireText resource.resourceType "resource_type"
    let displayName ← requireText resource.displayName "display_name"
    let sourceSurface ← requireText resource.sourceSurface "source_surface"
    let sourceRef ← requireText resource.sourceRef "source_ref"
    pure ⟨"resources.register",
      [("resourceType", .str resourceType), ("displayName", .str displayName),
       ("projectId", optionalJson projectId), ("folderId", optionalJson folderId),
       ("sourceSurface", .str sourceSurface), ("sourceRef", .str sourceRef),
       ("operationsPath", optionalJson resource.operationsPath),
       ("metadata", .obj resource.metadata)],
      registerResourceMutation env call
        { resource with resourceType, displayName, sourceSurface, sourceRef } projectId folderId⟩
  | .moveResource rid projectId folderId =>
    pure ⟨"resources.move",
      [("rid", .str rid), ("projectId", .str projectId), ("folderId", optionalJson folderId)],
      moveResourceMutation call rid projectId folderId⟩
  | .setResourceStatus rid status =>
    pure ⟨s!"resources.{status.verb}", [("rid", .str rid), ("status", .str status.text)],
      setResourceStatusMutation call rid status⟩
  | .favoriteResource rid shouldAdd =>
    pure ⟨if shouldAdd then "resources.favorite" else "resources.unfavorite", [("rid", .str rid)],
      favoriteResourceMutation env call rid shouldAdd⟩
  | .reconcile projectId =>
    pure ⟨"resources.reconcile", [("projectId", optionalJson projectId)],
      reconcileMutation env call projectId⟩

/-- `replay_or_conflict`. -/
def replayOrConflict (row : IdempotencyRow) (requestHash : String) : Checked Mapping := do
  if row.requestHash ≠ requestHash then
    throw (conflictDetected "idempotency key was reused with a different resource request"
      [("scope", .str row.scope), ("idempotency_key", .str row.idempotencyKey)])
  pure row.responsePayload

/-- `_mutation`: answer from the record of the key, or write and record the answer. -/
def runMutation (env : Environment) (call : Call) (idempotencyKey : String) (m : Mutation) :
    Tx Mapping := do
  let requestHash := env.serialiser.jsonHash m.request
  match (← get).idempotencyRecord call.ctx.tenantId m.scope idempotencyKey with
  | some existing => liftM (replayOrConflict existing requestHash)
  | none => do
    let response ← m.writer
    storeIdempotencyRecord call.ctx.tenantId m.scope idempotencyKey requestHash response call.now
    pure response

/-- One operation on the catalog. -/
inductive Operation where
  /-- A service call with its idempotency key. -/
  | request (idempotencyKey : String) (request : Request)
  /-- A registration by the service of a work product. -/
  | workProduct (resource : ResourceCandidate)

/-- An operation and what it is given. -/
structure Event where
  call : Call
  operation : Operation

def handle (env : Environment) (e : Event) : Tx Mapping :=
  match e.operation with
  | .request idempotencyKey request => do
    let m ← liftM (mutationOf env e.call request)
    runMutation env e.call idempotencyKey m
  | .workProduct resource => upsertWorkProductResource env e.call resource

/-- What the catalog is after an operation: a refused one leaves it as it was. -/
def after (env : Environment) (c : Catalog) (e : Event) : Catalog := ((handle env e).attempt c).2

/-- What an operation answers. -/
def answer (env : Environment) (c : Catalog) (e : Event) : Checked Mapping :=
  ((handle env e).attempt c).1

/-- Every operation can be tried in every state. -/
def next (env : Environment) (c : Catalog) (e : Event) : Option Catalog := some (after env c e)

end FoundryLite.ResourceCatalog
