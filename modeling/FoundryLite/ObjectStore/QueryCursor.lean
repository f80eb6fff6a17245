import FoundryLite.ObjectStore.QueryFilters

/-!
# Cursors of object queries

A query of objects returns a page and a cursor, the position behind its last row, from which a
query of the same objects goes on. The cursor is a text that the caller hands back: the position,
what it was computed for, and a signature.

The rows that a caller may see are a filter too. It is combined with the one of the caller before
the position is computed, and a caller who may see no row gets an empty page.
-/

namespace FoundryLite.ObjectQuery

/-! ### What a query is for -/

inductive ObjectSortDirection where
  | asc | desc
  deriving DecidableEq

def ObjectSortDirection.text : ObjectSortDirection → String
  | .asc => "asc"
  | .desc => "desc"

structure ObjectOrderBy where
  property : String
  direction : ObjectSortDirection
  deriving DecidableEq

/-- What the rows of a page are computed from, apart from the position. -/
structure Scope where
  tenantId : String
  actorUserId : String
  objectTypeApiName : String
  /-- The filter of the caller, and of the row policies. -/
  filter : Option Mapping
  orderBy : List ObjectOrderBy
  activeIndexVersion : String

/-- What the rules leave to the standard library and to the environment of the process. A cursor is
a text of type `κ`. -/
structure CursorEnvironment (κ : Type) where
  /-- The first 32 digits of the HMAC of a compact text with sorted keys, under a key. -/
  hmac : String → Json → String
  /-- The digits of the SHA-256 of a compact text with sorted keys. -/
  sha256 : Json → String
  /-- The prefix and the text in base 64. -/
  encodeToken : Json → κ
  /-- What a text that has the prefix is the encoding of. -/
  decodeToken : κ → Option Json
  /-- The keys that a signature is accepted under, by their identifiers. -/
  signingKeys : List (String × String)
  currentKeyId : String
  cursorTtlSeconds : ℤ

variable {κ : Type}

/-- `_shape_checksum`: the first 16 digits. -/
def CursorEnvironment.checksum (env : CursorEnvironment κ) (shape : Json) : String :=
  .ofList ((env.sha256 shape).toList.take 16)

/-- `_order_signature`. -/
def orderSignature (orderBy : List ObjectOrderBy) : Json :=
  .arr (orderBy.map fun order => .str (order.property ++ (":" ++ order.direction.text)))

/-- What the checksum of a query is taken of. -/
def Scope.shape (scope : Scope) : Json :=
  Json.norm .text
    (.obj [("filter", .obj (scope.filter.getD [])), ("order", orderSignature scope.orderBy)])

/-! ### Signatures -/

def invalidCursor : String := "invalid object query cursor"

/-- `_cursor_signing_key`. -/
def cursorSigningKey (env : CursorEnvironment κ) (kid : String) : Checked String :=
  match (env.signingKeys.lookup kid).filter (· ≠ "") with
  | some key => pure key
  | none => validationFailed invalidCursor

def unsignedPayload (payload : Mapping) : Mapping :=
  payload.filter fun entry => entry.1 ≠ "signature"

/-- `_payload_signature`. -/
def payloadSignature (env : CursorEnvironment κ) (payload : Mapping) : Checked String :=
  match payload.lookup "kid" with
  | some (.str kid) => do
    let signingKey ← cursorSigningKey env kid
    pure (env.hmac signingKey (Json.norm .text (.obj (unsignedPayload payload))))
  | _ => validationFailed invalidCursor

def signedPayload (env : CursorEnvironment κ) (payload : Mapping) : Checked Mapping := do
  let signature ← payloadSignature env payload
  pure (payload ++ [("signature", .str signature)])

def requireValidSignature (env : CursorEnvironment κ) (payload : Mapping) : Checked Unit :=
  match payload.lookup "signature" with
  | some (.str provided) => do
    let expected ← payloadSignature env payload
    rejectIf (provided ≠ expected) invalidCursor
  | _ => validationFailed invalidCursor

/-! ### Encoding -/

/-- A cursor as it was issued: for a query, the position behind a row. -/
structure Issue where
  scope : Scope
  values : List Json
  objectId : String
  kid : String
  expiresAt : ℤ
  /-- There is a value for each term of the order. -/
  length_values : values.length = scope.orderBy.length

def Issue.payload (env : CursorEnvironment κ) (issue : Issue) : Mapping :=
  [("activeIndexVersion", .str issue.scope.activeIndexVersion),
    ("actorUserId", .str issue.scope.actorUserId), ("expiresAt", .int issue.expiresAt),
    ("kid", .str issue.kid), ("order", orderSignature issue.scope.orderBy),
    ("shape", .str (env.checksum issue.scope.shape)), ("tenantId", .str issue.scope.tenantId),
    ("values", .arr issue.values), ("objectId", .str issue.objectId)]

structure ObjectRecordRow where
  objectId : String
  objectVersion : ℕ+
  properties : Mapping

/-- What a cursor that is encoded now says. -/
def issueOf (env : CursorEnvironment κ) (scope : Scope) (row : ObjectRecordRow) (now : ℤ) : Issue :=
  { scope
    values := scope.orderBy.map fun order => (row.properties.lookup order.property).getD .null
    objectId := row.objectId
    kid := env.currentKeyId
    expiresAt := now + env.cursorTtlSeconds
    length_values := List.length_map _ }

def Issue.encode (env : CursorEnvironment κ) (issue : Issue) : Checked κ := do
  let payload ← signedPayload env (issue.payload env)
  pure (env.encodeToken (Json.norm .text (.obj payload)))

def encodeObjectQueryCursor (env : CursorEnvironment κ) (row : ObjectRecordRow) (scope : Scope)
    (now : ℤ) : Checked κ :=
  (issueOf env scope row now).encode env

/-! ### Decoding -/

/-- `ObjectQueryCursor`: the position that the page is read from. -/
structure Position where
  values : List Json
  objectId : String

/-- `_cursor_payload`. -/
def cursorPayload (env : CursorEnvironment κ) (cursor : κ) : Checked Mapping :=
  match env.decodeToken cursor with
  | some (.obj payload) => do
    requireValidSignature env payload
    pure payload
  | _ => validationFailed invalidCursor

/-- `_require_cursor_scope`. -/
def requireCursorScope (payload : Mapping) (scope : Scope) (now : ℤ) : Checked Unit := do
  rejectIf (payload.lookup "tenantId" ≠ some (.str scope.tenantId))
    "object query cursor does not match tenant"
  rejectIf (payload.lookup "actorUserId" ≠ some (.str scope.actorUserId))
    "object query cursor does not match user"
  match payload.lookup "expiresAt" with
  | some (.int expiresAt) =>
    rejectIf (expiresAt < now) "object query cursor expired" [("expiresAt", .int expiresAt)]
  | _ => validationFailed invalidCursor

/-- The position of a payload that is accepted. -/
def payloadPosition (payload : Mapping) (orderBy : List ObjectOrderBy) : Checked Position :=
  match payload.lookup "values", payload.lookup "objectId" with
  | some (.arr values), some (.str objectId) => do
    rejectIf (values.length ≠ orderBy.length) "object query cursor does not match orderBy"
    pure ⟨values, objectId⟩
  | _, _ => validationFailed invalidCursor

/-- Nothing that is compared says which objects the position is of. -/
def decodeObjectQueryCursor (env : CursorEnvironment κ) (cursor : Option κ) (scope : Scope)
    (now : ℤ) : Checked (Option Position) :=
  match cursor with
  | none => pure none
  | some cursor => do
    let payload ← cursorPayload env cursor
    requireCursorScope payload scope now
    rejectIf (payload.lookup "activeIndexVersion" ≠ some (.str scope.activeIndexVersion))
      "object query cursor active index version changed"
      [("cursorActiveIndexVersion", (payload.lookup "activeIndexVersion").getD .null),
        ("currentActiveIndexVersion", .str scope.activeIndexVersion)]
    rejectIf (payload.lookup "order" ≠ some (orderSignature scope.orderBy))
      "object query cursor does not match orderBy"
    rejectIf (payload.lookup "shape" ≠ some (.str (env.checksum scope.shape)))
      "object query cursor does not match query shape"
    some <$> payloadPosition payload scope.orderBy

/-! ### Queries -/

structure RequestContext where
  tenantId : String
  actorUserId : String
  roles : List String

structure ObjectQueryRequest (κ : Type) where
  ctx : RequestContext
  objectTypeApiName : String
  filter : Option Mapping
  orderBy : List (List (String × String))
  limit : ℤ
  cursor : Option κ

/-- What a query reads of an object type: its index, the filters of its row policies by the role they
are for, and the types of its properties. -/
structure ObjectType where
  activeIndexVersion : String
  rowPolicies : List (String × Mapping)
  dataTypes : String → Option String

/-- What the rules leave to the ontology and to the repository. -/
structure World where
  activeObjectType : String → Checked ObjectType
  /-- `_validate_query_shape`: the properties exist and none is masked for the caller. -/
  validateQueryShape : RequestContext → String → Option Mapping → List ObjectOrderBy → Checked Unit
  queryActiveObjectRows : Scope → Option Position → ℕ → Checked (List ObjectRecordRow)

/-- `_normalized_order_item`. -/
def normalizedOrderItem (item : List (String × String)) : Checked ObjectOrderBy :=
  match (item.lookup "property").filter (· ≠ "") with
  | none => validationFailed "object query orderBy property is required"
  | some property =>
    match (item.lookup "direction").getD "asc" with
    | "asc" => pure ⟨property, .asc⟩
    | "desc" => pure ⟨property, .desc⟩
    | direction =>
      validationFailed "object query orderBy direction must be asc or desc"
        [("direction", .str direction)]

/-- The largest number of rows of a page. -/
def objectQueryMaxLimit : ℤ := 500

/-- `query_limit`. -/
def queryLimit (limit : ℤ) : Checked ℕ := do
  rejectIf (limit < 1) "object query limit must be positive" [("limit", .int limit)]
  rejectIf (objectQueryMaxLimit < limit) "object query limit exceeds maximum"
    [("limit", .int limit), ("max_limit", .int objectQueryMaxLimit)]
  pure limit.toNat

/-- The rows that a caller may see: all, those of a filter, or none. -/
structure RowPolicyScope where
  isUnrestricted : Bool
  filter : Option Mapping

/-- `_persisted_row_policy`, of a role and a document. -/
def persistedRowPolicy (policy : String × Mapping) : Checked Filter := do
  rejectIf (policy.1 = "") "object type row policy requires a role and a filter"
  validateFilterAst (.obj policy.2)

/-- `row_policy_scope`. A caller who is not restricted has the policies checked too. -/
def rowPolicyScope (dataTypes : String → Option String) (policies : List (String × Mapping))
    (roles : List String) : Checked RowPolicyScope := do
  let filters ← policies.mapM persistedRowPolicy
  filters.forM (Filter.validateTyped dataTypes)
  if policies = [] ∨ "admin" ∈ roles then pure ⟨true, none⟩
  else match policies.filter fun policy => policy.1 ∈ roles with
    | [] => pure ⟨false, none⟩
    | [policy] => pure ⟨false, some policy.2⟩
    | held => pure ⟨false, some [("or", .arr (held.map fun policy => .obj policy.2))]⟩

@[simp]
theorem rowPolicyScope_nil (dataTypes : String → Option String) (roles : List String) :
    rowPolicyScope dataTypes [] roles = .ok ⟨true, none⟩ := by
  simp [rowPolicyScope, bind, Except.bind, pure, Except.pure]

def RowPolicyScope.hidesAllRows (scope : RowPolicyScope) : Bool :=
  !scope.isUnrestricted && scope.filter.isNone

/-- `scoped_filter_ast`. -/
def scopedFilter (scope : RowPolicyScope) (filter : Option Mapping) : Option Mapping :=
  match scope.filter, filter with
  | none, _ => filter
  | some policy, none => some policy
  | some policy, some filter => some [("and", .arr [.obj policy, .obj filter])]

/-- A filter that has no member is no filter. -/
def validateFilter (filter : Option Mapping) : Checked Unit :=
  match filter.getD [] with
  | [] => pure ()
  | ast => discard (validateFilterAst (.obj ast))

/-- What a request is for, unless the caller may see no row of it. -/
def queryScope (world : World) (request : ObjectQueryRequest κ) : Checked (Option Scope) := do
  let orderBy ← request.orderBy.mapM normalizedOrderItem
  validateFilter request.filter
  let objectType ← world.activeObjectType request.objectTypeApiName
  world.validateQueryShape request.ctx request.objectTypeApiName request.filter orderBy
  let visible ← rowPolicyScope objectType.dataTypes objectType.rowPolicies request.ctx.roles
  if visible.hidesAllRows then pure none
  else
    pure (some
      { tenantId := request.ctx.tenantId, actorUserId := request.ctx.actorUserId
        objectTypeApiName := request.objectTypeApiName
        filter := scopedFilter visible request.filter, orderBy
        activeIndexVersion := objectType.activeIndexVersion })

/-- `_next_cursor`: there is one when there are rows behind the page. -/
def nextCursor (env : CursorEnvironment κ) (records page : List ObjectRecordRow) (scope : Scope)
    (now : ℤ) : Checked (Option κ) :=
  if records.length ≤ page.length then pure none
  else match page.getLast? with
    | none => pure none
    | some row => some <$> encodeObjectQueryCursor env row scope now

/-- A page of objects and the cursor behind it. The cursor is read and issued at two times. -/
def queryObjects (env : CursorEnvironment κ) (world : World) (request : ObjectQueryRequest κ)
    (now issuedAt : ℤ) : Checked (List ObjectRecordRow × Option κ) := do
  let limit ← queryLimit request.limit
  match ← queryScope world request with
  | none => pure ([], none)
  | some scope => do
    let position ← decodeObjectQueryCursor env request.cursor scope now
    let records ← world.queryActiveObjectRows scope position (limit + 1)
    let page := records.take limit
    let next ← nextCursor env records page scope issuedAt
    pure (page, next)

end FoundryLite.ObjectQuery
