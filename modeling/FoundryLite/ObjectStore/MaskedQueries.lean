import FoundryLite.ObjectStore.SqlQuery

/-!
# Queries and aggregations of a caller

What a caller may not see of an object is masked: the properties that are classified, and those of
a segment of the data source that needs a role the caller does not hold. A request that names a
masked property is refused, in a filter, in an order, in a group or in a metric, and the items of a
page show a marker in its place.
-/

namespace FoundryLite.ObjectQuery

open ObjectStore (Store IndexedStore ObjectTypeId LinkTypeRow)

/-! ### Policies of properties -/

/-- A row of the property policies: what protects a property of an object type. -/
structure PropertyPolicyRow where
  objectType : String
  property : String
  classification : Option String
  segmentRequiredRole : Option String

def sensitiveClassifications : List String := ["finance", "pii"]

def knownPropertyClassifications : List String := sensitiveClassifications ++ ["public"]

/-- `_collect_segment_role` and `_collect_classification`, as far as they refuse a row. -/
def checkPolicyRow (row : PropertyPolicyRow) : Checked Unit := do
  if row.segmentRequiredRole = some "" then
    throw (permissionDenied "unsupported datasource segment role"
      [("segment_required_role", .str "")])
  match row.classification with
  | none => pure ()
  | some classification =>
    if classification ∈ knownPropertyClassifications then pure ()
    else throw (permissionDenied "unsupported property classification"
      [("classification", .str classification)])

/-- The properties of an object type that are classified. -/
def sensitivePropertyNames (rows : List PropertyPolicyRow) (objectType : String) : List String :=
  (rows.filter fun row => row.objectType = objectType ∧
    ∃ classification ∈ row.classification, classification ∈ sensitiveClassifications).map
      PropertyPolicyRow.property

/-- The role that the segment of a property needs: that of the last row that names one. -/
def segmentRole? (rows : List PropertyPolicyRow) (objectType property : String) : Option String :=
  (rows.reverse.find? fun row => row.objectType = objectType ∧ row.property = property ∧
    row.segmentRequiredRole.isSome).bind PropertyPolicyRow.segmentRequiredRole

/-- `segment_masked_property_names`. -/
def segmentMaskedNames (rows : List PropertyPolicyRow) (roles : List String)
    (objectType : String) : List String :=
  if "admin" ∈ roles then []
  else ((rows.filter fun row => row.objectType = objectType).map
    PropertyPolicyRow.property).filter fun property =>
      ∃ role ∈ segmentRole? rows objectType property, role ∉ roles

/-- The classified properties, unless the caller may see those. -/
def classificationMaskedNames (rows : List PropertyPolicyRow) (roles : List String)
    (objectType : String) : List String :=
  if "finance" ∈ roles ∨ "admin" ∈ roles then [] else sensitivePropertyNames rows objectType

/-- `masked_property_names`. An administrator is not checked against any row. -/
def maskedPropertyNames (rows : List PropertyPolicyRow) (roles : List String)
    (objectType : String) : Checked (List String) := do
  if "admin" ∈ roles then pure []
  else
    rows.forM checkPolicyRow
    pure (classificationMaskedNames rows roles objectType ++
      segmentMaskedNames rows roles objectType)

def maskedText : String := "***MASKED***"

/-- What is shown in place of a value. -/
def maskValue (rows : List PropertyPolicyRow) (roles : List String) (objectType name : String)
    (value : Json) : Json :=
  if name ∈ classificationMaskedNames rows roles objectType then .str maskedText
  else if name ∈ segmentMaskedNames rows roles objectType then .null
  else value

/-- `mask_properties`. -/
def maskProperties (rows : List PropertyPolicyRow) (roles : List String) (objectType : String)
    (properties : Mapping) : Mapping :=
  properties.map fun entry => (entry.1, maskValue rows roles objectType entry.1 entry.2)

/-! ### What is deployed -/

structure ServedObjectType where
  id : ObjectTypeId
  schema : Schema
  rowPolicies : List (String × Mapping)
  /-- Whether only the rows of this version of the type are read. -/
  isScoped : Bool

/-- The active ontology and the policies of each tenant. -/
structure Deployment where
  objectTypes : String → List ServedObjectType
  policyRows : String → List PropertyPolicyRow
  /-- The link types that links may be of, in every version of an ontology. -/
  linkTypes : List LinkTypeRow
  /-- `policy.require` and the scope of the application that calls. -/
  requireRead : RequestContext → String → Checked Unit

def Deployment.activeObjectType (deployment : Deployment) (ctx : RequestContext) (apiName : String) :
    Checked ServedObjectType :=
  match (deployment.objectTypes ctx.tenantId).find? fun type => type.id.apiName.val = apiName with
  | some type => pure type
  | none => throw (notFound "object type not found" [("api_name", .str apiName)])

/-- The properties of an object type that are masked for a caller. -/
def Deployment.maskedPropertyNames (deployment : Deployment) (ctx : RequestContext)
    (objectType : String) : Checked (List String) :=
  ObjectQuery.maskedPropertyNames (deployment.policyRows ctx.tenantId) ctx.roles objectType

/-- `active_index_version`: the one that was switched to, or that of the row written last. -/
def activeIndexVersion (store : IndexedStore) (tenantId : String) (objectType : ObjectTypeId) :
    String :=
  match store.indexPointers tenantId objectType with
  | some version => version
  | none =>
    let rows := store.tables.objects.rows.filter fun row =>
      row.tenantId = tenantId ∧ row.objectType = objectType ∧ row.isActive
    let latest := rows.mergeSort fun a b =>
      b.updatedAt < a.updatedAt ∨ (a.updatedAt = b.updatedAt ∧ a.indexVersion ≤ b.indexVersion)
    (latest.head?.map fun row => row.indexVersion).getD "active"

/-! ### Validation -/

/-- `_validate_query_property`. -/
def validateQueryProperty (schema : Schema) (masked : List String) (source name : String) :
    Checked Unit := do
  rejectIf ((schema.dataType? name).isNone) "object query references missing property"
    [("property", .str name), ("source", .str source)]
  rejectIf (name ∈ masked) "object query references masked property"
    [("property", .str name), ("source", .str source)]

/-- The filter of a request, where it has one. -/
def requestFilter (filter : Option Mapping) : Checked (Option Filter) :=
  match filter.getD [] with
  | [] => pure none
  | ast => some <$> validateFilterAst (.obj ast)

/-- `validate_query_properties`. -/
def validateQueryProperties (schema : Schema) (masked : List String) (filter : Option Mapping)
    (orderBy : List ObjectOrderBy) : Checked Unit := do
  orderBy.forM fun order => validateQueryProperty schema masked "orderBy" order.property
  match ← requestFilter filter with
  | none => pure ()
  | some filter =>
    filter.properties.forM (validateQueryProperty schema masked "filter")
    filter.validateTyped schema.dataType?

/-- `_validate_query_shape`. -/
def Deployment.validateQueryShape (deployment : Deployment) (ctx : RequestContext)
    (objectType : String) (filter : Option Mapping) (orderBy : List ObjectOrderBy) :
    Checked Unit := do
  let type ← deployment.activeObjectType ctx objectType
  let masked ← deployment.maskedPropertyNames ctx objectType
  validateQueryProperties type.schema masked filter orderBy

/-! ### Queries -/

/-- The parts of a server that do not change with the store. -/
structure Server (κ : Type) extends Deployment where
  cursors : CursorEnvironment κ
  sql : SqlEnvironment

/-- What a request reads of the store: the index version of an object type, and its rows. -/
structure Readable where
  indexVersion : ServedObjectType → String
  rows : ServedObjectType → List QueryRow

def ServedObjectType.recordScope (type : ServedObjectType) (tenantId : String) : RecordScope :=
  ⟨tenantId, type.id.apiName, if type.isScoped then some type.id else none⟩

variable {κ : Type}

/-- What a caller's request reads of a store. -/
def Server.readable (server : Server κ) (ctx : RequestContext) (store : IndexedStore) :
    Readable where
  indexVersion type := activeIndexVersion store ctx.tenantId type.id
  rows type := activeRows server.sql store.tables type.schema (type.recordScope ctx.tenantId)

/-- The ontology and the repository as a query of a caller finds them. -/
def Server.world (server : Server κ) (ctx : RequestContext) (readable : Readable) : World where
  activeObjectType apiName := do
    let type ← server.activeObjectType ctx apiName
    pure ⟨readable.indexVersion type, type.rowPolicies, type.schema.dataType?⟩
  validateQueryShape := server.validateQueryShape
  queryActiveObjectRows scope position limit := do
    let type ← server.activeObjectType ctx scope.objectTypeApiName
    let filter ← requestFilter scope.filter
    pure ((queryRows server.sql type.schema filter scope.orderBy position limit
      (readable.rows type)).map (objectRowWithDerived type.schema))

structure ObjectQueryItem where
  objectType : String
  objectId : String
  objectVersion : ℕ+
  properties : Mapping

/-- `_object_query_item`. -/
def Deployment.objectQueryItem (deployment : Deployment) (ctx : RequestContext)
    (objectType : String) (row : ObjectRecordRow) : ObjectQueryItem :=
  ⟨objectType, row.objectId, row.objectVersion,
    maskProperties (deployment.policyRows ctx.tenantId) ctx.roles objectType row.properties⟩

/-- A query, of what it reads. -/
def Server.queryReadable (server : Server κ) (readable : Readable)
    (request : ObjectQueryRequest κ) (now issuedAt : ℤ) :
    Checked (List ObjectQueryItem × Option κ) := do
  server.requireRead request.ctx request.objectTypeApiName
  let (page, next) ← ObjectQuery.queryObjects server.cursors (server.world request.ctx readable)
    request now issuedAt
  pure (page.map (server.objectQueryItem request.ctx request.objectTypeApiName), next)

/-- `query_objects`. -/
def Server.queryObjects (server : Server κ) (store : IndexedStore)
    (request : ObjectQueryRequest κ) (now issuedAt : ℤ) :
    Checked (List ObjectQueryItem × Option κ) :=
  server.queryReadable (server.readable request.ctx store) request now issuedAt

/-! ### Aggregations -/

/-- An aggregation request. -/
structure AggregationRequest where
  ctx : RequestContext
  objectTypeApiName : String
  filter : Option Mapping
  groupBy : List String
  select : List Mapping

structure ObjectAggregationPlan where
  groupBy : List String
  metrics : List ObjectAggregationMetric

def aggregationGroupLimit : ℕ := 1000

def aggregationMaxGroupBy : ℕ := 2

def aggregationFunctions : List (String × AggregateFunction) :=
  [("count", .count), ("sum", .sum), ("avg", .avg), ("min", .min), ("max", .max)]

def texts (names : List String) : Json := .arr (names.map Json.str)

/-- `_require_aggregation_property`. -/
def requireAggregationProperty (objectType : String) (schema : Schema) (masked : List String)
    (source name : String) : Checked Unit := do
  rejectIf ((schema.dataType? name).isNone) "object aggregation references missing property"
    [("objectType", .str objectType), ("property", .str name), ("source", .str source)]
  if name ∈ masked then
    throw (permissionDenied "object aggregation references masked property"
      [("objectType", .str objectType), ("property", .str name), ("source", .str source)])

/-- `_validated_group_by`. -/
def validatedGroupBy (objectType : String) (schema : Schema) (masked names : List String) :
    Checked (List String) := do
  rejectIf (aggregationMaxGroupBy < names.length)
    "object aggregation supports at most two groupBy properties"
    [("objectType", .str objectType), ("groupBy", texts names)]
  rejectIf (¬ names.Nodup) "object aggregation groupBy properties must be unique"
    [("objectType", .str objectType), ("groupBy", texts names)]
  names.forM (requireAggregationProperty objectType schema masked "groupBy")
  pure names

/-- `_metric_name`. -/
def metricName (item : Mapping) (default : String) : String :=
  match item.lookup "name" with
  | some (.str name) => if name = "" then default else name
  | _ => default

/-- `_count_metric`. -/
def countMetric (objectType : String) (item : Mapping) : Checked ObjectAggregationMetric := do
  rejectIf ((item.lookup "property").getD .null ≠ .null)
    "object aggregation count metric must not name a property"
    [("objectType", .str objectType), ("property", (item.lookup "property").getD .null)]
  pure ⟨metricName item "count", .count, none⟩

/-- `_property_metric`. -/
def propertyMetric (objectType : String) (schema : Schema) (masked : List String) (item : Mapping)
    (text : String) (function : AggregateFunction) : Checked ObjectAggregationMetric :=
  match item.lookup "property" with
  | some (.str name) => do
    rejectIf (name = "") "object aggregation metric requires a property"
      [("objectType", .str objectType), ("function", .str text)]
    requireAggregationProperty objectType schema masked "select" name
    let dataType := (schema.dataType? name).getD ""
    rejectIf (isNumberType dataType = false)
      "object aggregation metric requires a numeric property"
      [("objectType", .str objectType), ("property", .str name), ("dataType", .str dataType)]
    pure ⟨metricName item (text ++ "_" ++ name), function, some name⟩
  | _ => validationFailed "object aggregation metric requires a property"
    [("objectType", .str objectType), ("function", .str text)]

/-- `_metric_from_request`. -/
def metricFromRequest (objectType : String) (schema : Schema) (masked : List String)
    (item : Mapping) : Checked ObjectAggregationMetric :=
  let unknown := validationFailed
    "object aggregation metric function must be count, sum, avg, min, or max"
    [("objectType", .str objectType), ("function", (item.lookup "function").getD .null)]
  match item.lookup "function" with
  | some (.str text) =>
    match aggregationFunctions.lookup text with
    | some .count => countMetric objectType item
    | some function => propertyMetric objectType schema masked item text function
    | none => unknown
  | _ => unknown

/-- `_validated_metrics`. -/
def validatedMetrics (objectType : String) (schema : Schema) (masked : List String)
    (select : List Mapping) : Checked (List ObjectAggregationMetric) := do
  rejectIf (select = []) "object aggregation select must contain at least one metric"
    [("objectType", .str objectType)]
  let metrics ← select.mapM (metricFromRequest objectType schema masked)
  let names := metrics.map ObjectAggregationMetric.name
  rejectIf (¬ names.Nodup) "object aggregation metric names must be unique"
    [("objectType", .str objectType), ("metrics", texts names)]
  pure metrics

def buildAggregationPlan (objectType : String) (schema : Schema) (masked groupBy : List String)
    (select : List Mapping) : Checked ObjectAggregationPlan := do
  let groupBy ← validatedGroupBy objectType schema masked groupBy
  let metrics ← validatedMetrics objectType schema masked select
  pure ⟨groupBy, metrics⟩

/-- `_key_value_sort`: null, then booleans, numbers and texts. -/
def keyValueSort : Json → ℕ ×ₗ ℚ ×ₗ String
  | .null => toLex (0, toLex (0, ""))
  | .bool b => toLex (1, toLex (if b then 1 else 0, ""))
  | .int n => toLex (2, toLex ((n : ℚ), ""))
  | .float q => toLex (2, toLex (q, ""))
  | .str s => toLex (3, toLex (0, s))
  | _ => toLex (3, toLex (0, ""))

def groupSortKey (groupBy : List String) (group : ObjectAggregationGroup) :
    List (ℕ ×ₗ ℚ ×ₗ String) :=
  groupBy.map fun name => keyValueSort ((group.key.lookup name).getD .null)

structure ObjectAggregationResult where
  groups : List ObjectAggregationGroup
  totalGroups : ℕ

/-- `finalize_aggregation_result`. -/
def finalizeAggregationResult (plan : ObjectAggregationPlan)
    (groups : List ObjectAggregationGroup) : Checked ObjectAggregationResult := do
  rejectIf (aggregationGroupLimit < groups.length)
    "object aggregation exceeds the group limit; add a filter or group by a lower-cardinality property"
    [("groupBy", texts plan.groupBy), ("groupLimit", .int aggregationGroupLimit)]
  pure ⟨groups.mergeSort fun a b => groupSortKey plan.groupBy a ≤ groupSortKey plan.groupBy b,
    groups.length⟩

/-- `_aggregate_visible_groups`. -/
def Server.visibleGroups (server : Server κ) (readable : Readable) (request : AggregationRequest)
    (type : ServedObjectType) (plan : ObjectAggregationPlan) :
    Checked (List ObjectAggregationGroup) := do
  let visible ← rowPolicyScope type.schema.dataType? type.rowPolicies request.ctx.roles
  if visible.hidesAllRows then pure []
  else
    let filter ← requestFilter (scopedFilter visible request.filter)
    pure (aggregateRows server.sql type.schema filter plan.groupBy plan.metrics
      (aggregationGroupLimit + 1) (readable.rows type))

/-- An aggregation, of what it reads. -/
def Server.aggregateReadable (server : Server κ) (readable : Readable)
    (request : AggregationRequest) : Checked ObjectAggregationResult := do
  server.requireRead request.ctx request.objectTypeApiName
  validateFilter request.filter
  let type ← server.activeObjectType request.ctx request.objectTypeApiName
  server.validateQueryShape request.ctx request.objectTypeApiName request.filter []
  let masked ← server.maskedPropertyNames request.ctx request.objectTypeApiName
  let plan ← buildAggregationPlan request.objectTypeApiName type.schema masked request.groupBy
    request.select
  let groups ← server.visibleGroups readable request type plan
  finalizeAggregationResult plan groups

/-- `aggregate_objects`. -/
def Server.aggregateObjects (server : Server κ) (store : IndexedStore)
    (request : AggregationRequest) : Checked ObjectAggregationResult :=
  server.aggregateReadable (server.readable request.ctx store) request

end FoundryLite.ObjectQuery
