import FoundryLite.TimestampKeys

/-!
# Filters of object queries

A filter is a document: a list of filters that all hold, a list of which one holds, or a
comparison of one property with a value. `validateFilterAst` reads the document, and refuses one
that is not a filter, as the source does before it walks it; what walks a filter afterwards works
on `Filter`.
-/

namespace FoundryLite.ObjectQuery

open ScalarValues

inductive FilterOperation where
  | eq | in_ | gte | gt | lte | lt | contains
  deriving DecidableEq

inductive Filter where
  | and (items : List Filter)
  | or (items : List Filter)
  | property (name : String) (op : FilterOperation) (value : Json)

/-! ### Documents that are filters -/

/-- `FILTER_OPERATIONS`. -/
def filterOperations : List (String × FilterOperation) :=
  [("eq", .eq), ("in", .in_), ("gte", .gte), ("gt", .gt), ("lte", .lte), ("lt", .lt),
    ("contains", .contains)]

def requiredString (ast : Mapping) (key : String) : Checked String :=
  match ast.lookup key with
  | some (.str value) => pure value
  | _ => validationFailed "filter field must be a string" [("field", .str key)]

def requiredValue (ast : Mapping) (key : String) : Checked Json :=
  match ast.lookup key with
  | some value => pure value
  | none => validationFailed "filter field is required" [("field", .str key)]

inductive FilterNode where
  | and | or | op
  deriving DecidableEq

def FilterNode.key : FilterNode → String
  | .and => "and"
  | .or => "or"
  | .op => "op"

/-- The keys of a document with a given node. -/
def FilterNode.allowed : FilterNode → List String
  | .and => ["and"]
  | .or => ["or"]
  | .op => ["property", "op", "value"]

/-- `_filter_node`. -/
def filterNode (ast : Mapping) : Checked FilterNode :=
  match [FilterNode.and, .or, .op].filter fun node => (ast.lookup node.key).isSome with
  | [node] => do
    let unexpected := Dict.sortedSet ((ast.map Prod.fst).filter fun key => key ∉ node.allowed)
    rejectIf (unexpected ≠ []) "filter contains unsupported fields"
      [("fields", .arr (unexpected.map Json.str))]
    pure node
  | nodes => validationFailed "filter must contain exactly one logical or property node"
      [("nodes", .arr (nodes.map fun node => .str node.key))]

/-- A comparison of a property. -/
def filterComparison (ast : Mapping) : Checked Filter := do
  let op ← requiredString ast "op"
  let name ← requiredString ast "property"
  let value ← requiredValue ast "value"
  match filterOperations.lookup op with
  | some op => pure (.property name op value)
  | none => validationFailed "unsupported filter operation" [("op", .str op)]

def isMapping : Json → Bool
  | .obj _ => true
  | _ => false

mutual

/-- `validate_filter_ast`, which returns the filter that the document is. -/
def validateFilterAst : Json → Checked Filter
  | .obj ast => do
    match ← filterNode ast with
    | .and => Filter.and <$> ((filterGroups ast).lookup "and").getD (pure [])
    | .or => Filter.or <$> ((filterGroups ast).lookup "or").getD (pure [])
    | .op => filterComparison ast
  | _ => validationFailed "filter logical group items must be objects"

/-- `_filter_group`, and the filters of the group. -/
def filterGroup : Json → Checked (List Filter)
  | .arr items => do
    rejectIf (items = []) "filter logical group must be a non-empty list"
    rejectIf (items.all isMapping = false) "filter logical group items must be objects"
    filterItems items
  | _ => validationFailed "filter logical group must be a list"

def filterItems : List Json → Checked (List Filter)
  | [] => pure []
  | item :: items => do
    let filter ← validateFilterAst item
    let filters ← filterItems items
    pure (filter :: filters)

/-- Each member of a document, read as a group. -/
def filterGroups : List (String × Json) → List (String × Checked (List Filter))
  | [] => []
  | (key, value) :: members => (key, filterGroup value) :: filterGroups members

end

/-! ### What a filter refers to -/

mutual

/-- The properties that a filter compares. -/
def Filter.properties : Filter → List String
  | .and items => filterProperties items
  | .or items => filterProperties items
  | .property name _ _ => [name]

def filterProperties : List Filter → List String
  | [] => []
  | item :: items => item.properties ++ filterProperties items

end

/-! ### Typed values -/

/-- `timestamp_microseconds`. Nothing catches an overflow. -/
def timestampKey (value : Json) : Checked (Option ℤ) :=
  match TimestampKeys.timestampMicroseconds value with
  | .ok key => pure key
  | .error .dateValueOutOfRange => throw (libraryError "date value out of range")

/-- `_typed_filter_value` of a value that is not null: the value as one of the type, if it is. -/
def typedFilterValue (dataType : String) (value : Json) : Checked (Option Json) :=
  match dataType with
  | "integer" => pure ((integerValue value).map .int)
  | "float" | "number" => pure ((finiteNumberValue value).map .float)
  | "boolean" => match value with
    | .bool b => pure (some (.bool b))
    | _ => pure none
  | "date" => pure (if isIsoDate value then some value else none)
  | "timestamp" => Option.map .int <$> timestampKey value
  | "string" => match value with
    | .str text => pure (some (.str text))
    | _ => pure none
  | _ => pure none

/-- `_validate_filter_operator_type`. -/
def validateOperatorType (name : String) (op : FilterOperation) (dataType : String) :
    Checked Unit := do
  rejectIf (op = .contains ∧ dataType ≠ "string") "contains filter requires a string property"
    [("property", .str name)]
  rejectIf (op ∈ [FilterOperation.gt, .gte, .lt, .lte] ∧ dataType = "boolean")
    "range filter does not support boolean properties" [("property", .str name)]

/-- `_typed_filter_candidates`. -/
def typedFilterCandidates (name : String) (op : FilterOperation) (value : Json) :
    Checked (List Json) :=
  match op, value with
  | .in_, .arr items => pure items
  | .in_, _ => validationFailed "in filter value must be a list" [("property", .str name)]
  | _, _ => pure [value]

def FilterOperation.text (op : FilterOperation) : String :=
  ((filterOperations.find? fun entry => entry.2 = op).map Prod.fst).getD ""

/-- `_validate_filter_candidate`. Null is of every type. -/
def validateCandidate (name : String) (op : FilterOperation) (dataType : String) (item : Json) :
    Checked Unit :=
  match item with
  | .null => pure ()
  | item => do
    let typed ← typedFilterValue dataType item
    rejectIf (typed = none) "filter value does not match property type"
      [("property", .str name), ("dataType", .str dataType), ("operation", .str op.text)]

/-- `_validate_typed_filter`. -/
def validateTypedFilter (dataTypes : String → Option String) (name : String)
    (op : FilterOperation) (value : Json) : Checked Unit :=
  match dataTypes name with
  | none => validationFailed "filter references unknown property" [("property", .str name)]
  | some dataType => do
    validateOperatorType name op dataType
    let candidates ← typedFilterCandidates name op value
    candidates.forM (validateCandidate name op dataType)

mutual

/-- The typed part of `validate_filter_ast`. -/
def Filter.validateTyped (dataTypes : String → Option String) : Filter → Checked Unit
  | .and items => validateTypedItems dataTypes items
  | .or items => validateTypedItems dataTypes items
  | .property name op value => validateTypedFilter dataTypes name op value

def validateTypedItems (dataTypes : String → Option String) : List Filter → Checked Unit
  | [] => pure ()
  | item :: items => do
    item.validateTyped dataTypes
    validateTypedItems dataTypes items

end

end FoundryLite.ObjectQuery
